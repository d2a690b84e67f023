import LineCoverage.Proofs.Text.Lines
import LineCoverage.Trace.Reader

/-!
# `LineCoverage.Proofs.Trace.Reading`: what reading a line does

`Reader.Step` lists what one line can do to a reader, with everything that has
to hold for it, and `step_processLine` says that it is one of these. What a
single line changes follows by cases on it:

* `opened_of_processLine`: a header opens one script, and no other line does.
  `opened_of_processLines` counts the headers of many lines.
* `processLine_withTaken`: nobody can tell from what a line does which scripts
  were taken from the reader before, nor what is known of the line after it.
  So a reader whose scripts are taken again and again reads the same as one
  whose scripts are left to it.

The rest is about lines read in turn. `processLines_append` is the run over two
lists, and `failsAt_of_processLines` finds the line at which a run ends.
-/

set_option autoImplicit false

namespace LineCoverage

/-- Whether a line is a header. -/
def Record.isHeader (line : String) : Bool :=
  match ofLine? line with
  | some (.header _ _) => true
  | _ => false

/-- A header names its script. -/
theorem Record.exists_header {line : String} (h : isHeader line = true) :
    ∃ path number, ofLine? line = some (.header path number) := by
  unfold isHeader at h
  split at h
  · rename_i path number hrecord
    exact ⟨path, number, hrecord⟩
  · cases h

namespace Reader

variable {sources : Sources}

/-! ### One line -/

/-- Without relocation a line is where it stands. -/
theorem locate_of_none (sources : Sources) {reader : Reader} (h : reader.relocator = none)
    (place : Location) :
    reader.locate sources place = (.ok place, reader) := by
  unfold locate
  rw [h]

/-- With relocation a line is where the relocator says. -/
theorem locate_of_some {reader : Reader} {relocator : Relocator}
    (h : reader.relocator = some relocator) (place : Location) :
    reader.locate sources place
      = ((relocator.relocate sources place).1,
          { reader with relocator := some (relocator.relocate sources place).2 }) := by
  unfold locate
  rw [h]

/-- Placing an instruction changes nothing but the relocator. -/
theorem exists_instruction (sources : Sources) (reader : Reader) (script : Script)
    (columns : InstructionText) :
    ∃ relocator, (reader.instruction sources script columns).2
      = { reader with relocator := relocator } := by
  have hlocate : ∀ place, ∃ relocator,
      (reader.locate sources place).2 = { reader with relocator := relocator } := by
    intro place
    cases hrelocator : reader.relocator with
    | none =>
        rw [locate_of_none sources hrelocator]
        exact ⟨reader.relocator, rfl⟩
    | some relocator =>
        rw [locate_of_some hrelocator]
        exact ⟨_, rfl⟩
  unfold instruction
  split
  · exact ⟨reader.relocator, rfl⟩
  · rename_i line _
    have h := hlocate ⟨script.path, line⟩
    split
    · rename_i later hplaced
      rwa [hplaced] at h
    · rename_i later hplaced
      rw [hplaced] at h
      split <;> exact h

/-- An instruction can be read when its three numbers can and its line can be placed. -/
theorem instruction_ok_iff {reader later : Reader} {script : Script} {columns : InstructionText}
    {inst : Instruction} :
    reader.instruction sources script columns = (.ok inst, later) ↔
      ∃ line pc count location,
        Numeral.read columns.line = .ok line ∧ Numeral.read columns.pc = .ok pc ∧
        Numeral.read columns.count = .ok count ∧
        reader.locate sources ⟨script.path, line⟩ = (.ok location, later) ∧
        inst = ⟨script.name, pc, location, count, String.ofList columns.asm,
          columns.unreachable⟩ := by
  unfold instruction
  constructor
  · intro h
    cases hline : Numeral.read columns.line with
    | error fault => simp [hline] at h
    | ok line =>
        rcases hplace : reader.locate sources ⟨script.path, line⟩ with ⟨fault | location, mid⟩
        · simp [hline, hplace] at h
        · cases hpc : Numeral.read columns.pc with
          | error fault => simp [hline, hplace, hpc] at h
          | ok pc =>
              cases hcount : Numeral.read columns.count with
              | error fault => simp [hline, hplace, hpc, hcount] at h
              | ok count =>
                  simp only [hline, hplace, hpc, hcount, Prod.mk.injEq, Except.ok.injEq] at h
                  obtain ⟨rfl, rfl⟩ := h
                  exact ⟨line, pc, count, location, rfl, rfl, rfl, hplace, rfl⟩
  · rintro ⟨line, pc, count, location, hline, hpc, hcount, hplace, rfl⟩
    simp only [hline, hplace, hpc, hcount]

/-- What a line does to a reader: the answer, and the reader after it. -/
inductive Step (sources : Sources) (reader : Reader) (line : String) :
    Except Fault Bool → Reader → Prop where
  /-- A header closes the open script and opens its own. -/
  | header (path number : List Char) (record : Record.ofLine? line = some (.header path number)) :
    Step sources reader line (.ok true)
      { reader.close with current := some (Script.opened path number) }
  /-- A line that is no record, or none that says anything outside a script. -/
  | passed (other : Record.isHeader line = false)
      (idle : reader.current = none ∨ Record.ofLine? line = none) :
    Step sources reader line (.ok false) reader
  | ending (script : Script) (record : Record.ofLine? line = some .ending)
      (opened : reader.current = some script) :
    Step sources reader line (.ok true) reader.close
  | furniture (script : Script) (record : Record.ofLine? line = some .furniture)
      (opened : reader.current = some script) :
    Step sources reader line (.ok true) reader
  /-- An instruction goes to the end of the open script. -/
  | instruction (columns : InstructionText) (script : Script) (inst : Instruction)
      (relocator : Option Relocator)
      (record : Record.ofLine? line = some (.instruction columns))
      (opened : reader.current = some script)
      (placed : reader.instruction sources script columns
        = (.ok inst, { reader with relocator := relocator })) :
    Step sources reader line (.ok true)
      { reader with current := some (script.push inst), relocator := relocator }
  /-- An instruction that cannot be read or placed changes no script. -/
  | fault (columns : InstructionText) (script : Script) (fault : Fault)
      (relocator : Option Relocator)
      (record : Record.ofLine? line = some (.instruction columns))
      (opened : reader.current = some script)
      (failed : reader.instruction sources script columns
        = (.error fault, { reader with relocator := relocator })) :
    Step sources reader line (.error fault) { reader with relocator := relocator }

/-- A line that is no record is not read. -/
theorem processLine_of_none (reader : Reader) {line : String}
    (hrecord : Record.ofLine? line = none) :
    reader.processLine sources line = (.ok false, reader) := by
  unfold processLine
  rw [hrecord]
  cases reader.current <;> rfl

/-- Outside a script no line but a header is read. -/
theorem processLine_of_idle (reader : Reader) (line : String)
    (other : Record.isHeader line = false) (idle : reader.current = none) :
    reader.processLine sources line = (.ok false, reader) := by
  unfold processLine
  rw [idle]
  rcases hrecord : Record.ofLine? line with _ | (_ | _ | _ | _)
  · rfl
  · simp [Record.isHeader, hrecord] at other
  · rfl
  · rfl
  · rfl

/-- A header is read in every state. -/
theorem processLine_of_header (reader : Reader) {line : String} {path number : List Char}
    (hrecord : Record.ofLine? line = some (.header path number)) :
    reader.processLine sources line
      = (.ok true, { reader.close with current := some (Script.opened path number) }) := by
  unfold processLine
  rw [hrecord]

/-- An ending closes the open script. -/
theorem processLine_of_ending {reader : Reader} {line : String} {script : Script}
    (hrecord : Record.ofLine? line = some .ending) (hopen : reader.current = some script) :
    reader.processLine sources line = (.ok true, reader.close) := by
  unfold processLine
  rw [hrecord, hopen]

/-- Furniture is read in a script, and says nothing. -/
theorem processLine_of_furniture {reader : Reader} {line : String} {script : Script}
    (hrecord : Record.ofLine? line = some .furniture) (hopen : reader.current = some script) :
    reader.processLine sources line = (.ok true, reader) := by
  unfold processLine
  rw [hrecord, hopen]

/-- An instruction that can be read goes to the end of the open script. -/
theorem processLine_of_instruction_ok {reader later : Reader} {line : String} {script : Script}
    {columns : InstructionText} {inst : Instruction}
    (hrecord : Record.ofLine? line = some (.instruction columns))
    (hopen : reader.current = some script)
    (hinst : reader.instruction sources script columns = (.ok inst, later)) :
    reader.processLine sources line
      = (.ok true, { later with current := some (script.push inst) }) := by
  unfold processLine
  rw [hrecord, hopen]
  simp only [hinst]

/-- An instruction that cannot be read or placed leaves the open script. -/
theorem processLine_of_instruction_error {reader later : Reader} {line : String}
    {script : Script} {columns : InstructionText} {fault : Fault}
    (hrecord : Record.ofLine? line = some (.instruction columns))
    (hopen : reader.current = some script)
    (hinst : reader.instruction sources script columns = (.error fault, later)) :
    reader.processLine sources line = (.error fault, later) := by
  unfold processLine
  rw [hrecord, hopen]
  simp only [hinst]

/-- A line does one of these. -/
theorem step_processLine (sources : Sources) (reader : Reader) (line : String) :
    Step sources reader line (reader.processLine sources line).1
      (reader.processLine sources line).2 := by
  -- The cases of the definition: a header, then no script, then the record in the script.
  cases hheader : Record.isHeader line with
  | true =>
      obtain ⟨path, number, hrecord⟩ := Record.exists_header hheader
      rw [processLine_of_header reader hrecord]
      exact .header path number hrecord
  | false =>
      cases hopen : reader.current with
      | none =>
          rw [processLine_of_idle reader line hheader hopen]
          exact .passed hheader (.inl hopen)
      | some script =>
          rcases hrecord : Record.ofLine? line with _ | (⟨path, number⟩ | _ | columns | _)
          · rw [processLine_of_none reader hrecord]
            exact .passed hheader (.inr hrecord)
          · simp [Record.isHeader, hrecord] at hheader
          · rw [processLine_of_ending hrecord hopen]
            exact .ending script hrecord hopen
          · obtain ⟨relocator, hlater⟩ := reader.exists_instruction sources script columns
            rcases hinst : reader.instruction sources script columns with ⟨fault | inst, later⟩
            · rw [hinst] at hlater
              subst hlater
              rw [processLine_of_instruction_error hrecord hopen hinst]
              exact .fault columns script fault relocator hrecord hopen hinst
            · rw [hinst] at hlater
              subst hlater
              rw [processLine_of_instruction_ok hrecord hopen hinst]
              exact .instruction columns script inst relocator hrecord hopen hinst
          · rw [processLine_of_furniture hrecord hopen]
            exact .furniture script hrecord hopen

/-! ### Scripts opened -/

/-- How many scripts were opened so far. -/
def opened (reader : Reader) : Nat := reader.scriptCount + reader.current.toList.length

/-- At the start of a trace no script was opened. -/
theorem opened_start (relocator : Option Relocator) : (start relocator).opened = 0 := rfl

/-- Closing puts the open script behind the complete ones. -/
theorem close_eq (reader : Reader) :
    reader.close = { reader with
      current := none
      completed := reader.completed ++ reader.current.toList
      scriptCount := reader.scriptCount + reader.current.toList.length } := by
  obtain ⟨fragment, current, completed, scriptCount, relocator⟩ := reader
  cases current with
  | none => simp [close]
  | some script => rfl

/-- Closing a script opens none. -/
theorem opened_close (reader : Reader) : reader.close.opened = reader.opened := by
  unfold close
  cases hopen : reader.current with
  | none => rfl
  | some script => simp [opened, hopen]

/-- Nothing is open after closing. -/
theorem current_close (reader : Reader) : reader.close.current = none := by
  unfold close
  cases hopen : reader.current with
  | none => exact hopen
  | some script => rfl

/-- No header was read exactly where no script was opened. -/
theorem isEmpty_iff (reader : Reader) : reader.isEmpty = true ↔ reader.opened = 0 := by
  cases hopen : reader.current <;> simp [isEmpty, opened, hopen]

/-- A header opens one script, and no other line opens any. -/
theorem opened_of_processLine {reader later : Reader} {line : String} {consumed : Bool}
    (h : reader.processLine sources line = (.ok consumed, later)) :
    later.opened = reader.opened + if Record.isHeader line then 1 else 0 := by
  have hstep := reader.step_processLine sources line
  rw [h] at hstep
  cases hstep with
  | header path number record =>
      have hclose := reader.opened_close
      simp only [opened, current_close, Option.toList_none, List.length_nil] at hclose
      simp only [opened, Record.isHeader, record, Option.toList_some, List.length_singleton]
      simp
      omega
  | passed other => simp [other]
  | ending script record =>
      show reader.close.opened = _
      simp [opened_close, Record.isHeader, record]
  | furniture script record => simp [Record.isHeader, record]
  | instruction columns script inst relocator record opened =>
      simp [Reader.opened, Record.isHeader, record, opened]

/-! ### Scripts taken -/

/-- The reader as it would be if the scripts `taken` from it had been left to it, and nothing
were known yet of the line after the last one. -/
def withTaken (taken : List Script) (reader : Reader) : Reader :=
  { reader with fragment := "", completed := taken ++ reader.completed }

/-- Closing a script does not depend on the scripts taken before. -/
theorem close_withTaken (taken : List Script) (reader : Reader) :
    (reader.withTaken taken).close = reader.close.withTaken taken := by
  obtain ⟨fragment, current, completed, scriptCount, relocator⟩ := reader
  cases current with
  | none => rfl
  | some script => simp [close, withTaken]

/-- Placing an instruction does not depend on the scripts taken before. -/
theorem instruction_withTaken (taken : List Script) (reader : Reader) (script : Script)
    (columns : InstructionText) :
    (reader.withTaken taken).instruction sources script columns
      = ((reader.instruction sources script columns).1,
          (reader.instruction sources script columns).2.withTaken taken) := by
  have hlocate : ∀ place, (reader.withTaken taken).locate sources place
      = ((reader.locate sources place).1, (reader.locate sources place).2.withTaken taken) := by
    intro place
    obtain ⟨fragment, current, completed, scriptCount, relocator⟩ := reader
    cases relocator with
    | none => rfl
    | some relocator => rfl
  unfold instruction
  cases Numeral.read columns.line with
  | error fault => rfl
  | ok line =>
      simp only [hlocate]
      rcases reader.locate sources ⟨script.path, line⟩ with ⟨fault | location, later⟩
      · rfl
      · cases Numeral.read columns.pc with
        | error fault => rfl
        | ok pc =>
            cases Numeral.read columns.count with
            | error fault => rfl
            | ok count => rfl

/-- Reading a line does not depend on the scripts taken before. -/
theorem processLine_withTaken (taken : List Script) (reader : Reader) (line : String) :
    (reader.withTaken taken).processLine sources line
      = ((reader.processLine sources line).1,
          (reader.processLine sources line).2.withTaken taken) := by
  have hcurrent : (reader.withTaken taken).current = reader.current := rfl
  unfold processLine
  rw [hcurrent, close_withTaken]
  rcases Record.ofLine? line with _ | (⟨path, number⟩ | _ | columns | _)
  · cases reader.current <;> rfl
  · rfl
  · cases reader.current <;> rfl
  · cases reader.current with
    | none => rfl
    | some script =>
        simp only [instruction_withTaken]
        rcases reader.instruction sources script columns with ⟨fault | inst, later⟩
        · rfl
        · rfl
  · cases reader.current <;> rfl

/-! ### Lines in turn -/

/-- Reading lines does not depend on the scripts taken before. -/
theorem processLines_withTaken (sources : Sources) (taken : List Script) (reader : Reader)
    (lines : List String) :
    (reader.withTaken taken).processLines sources lines
      = ((reader.processLines sources lines).1,
          (reader.processLines sources lines).2.withTaken taken) := by
  induction lines generalizing reader with
  | nil => rfl
  | cons line rest ih =>
      rw [processLines_cons, processLines_cons, processLine_withTaken]
      rcases reader.processLine sources line with ⟨fault | consumed, later⟩
      · rfl
      · simp only [ih later]

/-- Two lists of lines read in turn: the second with what the first left, unless that fails. -/
theorem processLines_append (reader : Reader) (left right : List String) :
    reader.processLines sources (left ++ right)
      = match reader.processLines sources left with
        | (.error fault, later) => (.error fault, later)
        | (.ok results, later) =>
          ((later.processLines sources right).1.map (results ++ ·),
            (later.processLines sources right).2) := by
  induction left generalizing reader with
  | nil =>
      rw [List.nil_append, processLines_nil]
      rcases hright : reader.processLines sources right with ⟨fault | results, later⟩
      · simp [hright, Except.map]
      · simp [hright, Except.map]
  | cons line rest ih =>
      rw [List.cons_append, processLines_cons, processLines_cons]
      rcases reader.processLine sources line with ⟨fault | consumed, later⟩
      · rfl
      · simp only [ih later]
        rcases later.processLines sources rest with ⟨fault | results, last⟩
        · rfl
        · simp only [Except.map]
          rcases last.processLines sources right with ⟨fault | others, final⟩ <;> rfl

/-- Behind lines that fail nothing is read. -/
theorem processLines_append_of_error {reader : Reader} {left : List String} {fault : Fault}
    (h : (reader.processLines sources left).1 = .error fault) (right : List String) :
    (reader.processLines sources (left ++ right)).1 = .error fault := by
  rw [processLines_append]
  rcases hleft : reader.processLines sources left with ⟨failure | results, later⟩
  · rw [hleft] at h
    exact h
  · rw [hleft] at h
    cases h

/-- Lines that can be read: the first can, and then the others. -/
theorem processLines_cons_ok {reader later : Reader} {line : String} {rest : List String}
    {results : List LineResult}
    (h : reader.processLines sources (line :: rest) = (.ok results, later)) :
    ∃ consumed mid others, reader.processLine sources line = (.ok consumed, mid) ∧
      mid.processLines sources rest = (.ok others, later) ∧
      results = ⟨line, consumed⟩ :: others := by
  rw [processLines_cons] at h
  rcases hline : reader.processLine sources line with ⟨fault | consumed, mid⟩
  · simp [hline] at h
  · rcases hrest : mid.processLines sources rest with ⟨fault | others, last⟩
    · simp [hline, hrest, Except.map] at h
    · simp only [hline, hrest, Except.map, Prod.mk.injEq, Except.ok.injEq] at h
      exact ⟨consumed, mid, others, rfl, by rw [hrest, h.2], h.1.symm⟩

/-- Lines that cannot all be read: the first cannot, or else not all of the others. -/
theorem processLines_cons_error {reader later : Reader} {line : String} {rest : List String}
    {fault : Fault}
    (h : reader.processLines sources (line :: rest) = (.error fault, later)) :
    reader.processLine sources line = (.error fault, later) ∨
      ∃ consumed mid, reader.processLine sources line = (.ok consumed, mid) ∧
        mid.processLines sources rest = (.error fault, later) := by
  rw [processLines_cons] at h
  rcases hline : reader.processLine sources line with ⟨failure | consumed, mid⟩
  · rw [hline] at h
    cases h
    exact .inl rfl
  · rcases hrest : mid.processLines sources rest with ⟨failure | others, last⟩
    · simp only [hline, hrest, Except.map, Prod.mk.injEq, Except.error.injEq] at h
      exact .inr ⟨consumed, mid, rfl, by rw [hrest, h.1, h.2]⟩
    · simp [hline, hrest, Except.map] at h

/-- The results are about the lines that were read, in order. -/
theorem map_line_of_processLines {reader later : Reader} {lines : List String}
    {results : List LineResult}
    (h : reader.processLines sources lines = (.ok results, later)) :
    results.map (·.line) = lines := by
  induction lines generalizing reader results with
  | nil =>
      rw [processLines_nil] at h
      cases h
      rfl
  | cons line rest ih =>
      obtain ⟨consumed, mid, others, -, hrest, rfl⟩ := processLines_cons_ok h
      rw [List.map_cons, ih hrest]

/-- As many scripts are opened as there are headers. -/
theorem opened_of_processLines {reader later : Reader} {lines : List String}
    {results : List LineResult}
    (h : reader.processLines sources lines = (.ok results, later)) :
    later.opened = reader.opened + lines.countP Record.isHeader := by
  induction lines generalizing reader results with
  | nil =>
      rw [processLines_nil] at h
      cases h
      rfl
  | cons line rest ih =>
      obtain ⟨consumed, mid, others, hline, hrest, -⟩ := processLines_cons_ok h
      rw [ih hrest, opened_of_processLine hline, List.countP_cons]
      omega

/-- A trace is empty exactly if none of its lines is a header. -/
theorem isEmpty_close_of_processLines {relocator : Option Relocator} {later : Reader}
    {lines : List String} {results : List LineResult}
    (h : (start relocator).processLines sources lines = (.ok results, later)) :
    later.close.isEmpty = !lines.any Record.isHeader := by
  have hopened : later.close.opened = lines.countP Record.isHeader := by
    rw [opened_close, opened_of_processLines h, opened_start, Nat.zero_add]
  rw [Bool.eq_iff_iff, isEmpty_iff, hopened, List.countP_eq_zero]
  simp

/-- Lines read in turn end with a fault at one of them, after the results of those before it. -/
def FailsAt (sources : Sources) (reader : Reader) (lines : List String)
    (results : List LineResult) (fault : Fault) : Prop :=
  ∃ before line after mid later, lines = before ++ line :: after ∧
    reader.processLines sources before = (.ok results, mid) ∧
    mid.processLine sources line = (.error fault, later)

/-- Lines that cannot all be read: those before one of them can, and that one leaves what they
leave. -/
theorem exists_of_processLines_error {reader later : Reader} {lines : List String} {fault : Fault}
    (h : reader.processLines sources lines = (.error fault, later)) :
    ∃ before line after results mid, lines = before ++ line :: after ∧
      reader.processLines sources before = (.ok results, mid) ∧
      mid.processLine sources line = (.error fault, later) := by
  induction lines generalizing reader with
  | nil =>
      rw [processLines_nil] at h
      cases h
  | cons line rest ih =>
      rcases processLines_cons_error h with hline | ⟨consumed, mid, hline, hrest⟩
      · exact ⟨[], line, rest, [], reader, rfl, rfl, hline⟩
      · obtain ⟨before, failing, after, results, stop, rfl, hbefore, hfails⟩ := ih hrest
        refine ⟨line :: before, failing, after, ⟨line, consumed⟩ :: results, stop, rfl, ?_, hfails⟩
        simp only [processLines_cons, hline, hbefore, Except.map]

/-- Lines that cannot all be read fail at one of them. -/
theorem failsAt_of_processLines {reader later : Reader} {lines : List String} {fault : Fault}
    (h : reader.processLines sources lines = (.error fault, later)) :
    ∃ results, FailsAt sources reader lines results fault := by
  obtain ⟨before, line, after, results, mid, hlines, hbefore, hline⟩ :=
    exists_of_processLines_error h
  exact ⟨results, before, line, after, mid, later, hlines, hbefore, hline⟩

/-- What fails at a line cannot be read. -/
theorem FailsAt.processLines_eq {reader : Reader} {lines : List String}
    {results : List LineResult} {fault : Fault} (h : FailsAt sources reader lines results fault) :
    (reader.processLines sources lines).1 = .error fault := by
  obtain ⟨before, line, after, mid, later, rfl, hbefore, hline⟩ := h
  rw [processLines_append, hbefore]
  simp only [processLines_cons, hline, Except.map]

/-- The lines behind the one that fails do not matter. -/
theorem FailsAt.append {reader : Reader} {lines : List String} {results : List LineResult}
    {fault : Fault} (h : FailsAt sources reader lines results fault) (more : List String) :
    FailsAt sources reader (lines ++ more) results fault := by
  obtain ⟨before, line, after, mid, later, rfl, hbefore, hline⟩ := h
  exact ⟨before, line, after ++ more, mid, later, by simp, hbefore, hline⟩

/-- Lines that fail behind lines that can be read. -/
theorem FailsAt.prepend {reader mid : Reader} {before lines : List String}
    {earlier results : List LineResult} {fault : Fault}
    (hbefore : reader.processLines sources before = (.ok earlier, mid))
    (h : FailsAt sources mid lines results fault) :
    FailsAt sources reader (before ++ lines) (earlier ++ results) fault := by
  obtain ⟨between, line, after, stop, later, rfl, hbetween, hline⟩ := h
  refine ⟨before ++ between, line, after, stop, later, by simp, ?_, hline⟩
  rw [processLines_append, hbefore]
  simp only [hbetween, Except.map]

/-! ### The line that has not ended -/

/-- Reading a line leaves what is known of the line after it. -/
theorem fragment_processLine (sources : Sources) (reader : Reader) (line : String) :
    (reader.processLine sources line).2.fragment = reader.fragment := by
  have hclose : reader.close.fragment = reader.fragment := by
    unfold close
    cases reader.current <;> rfl
  have hstep := reader.step_processLine sources line
  generalize (reader.processLine sources line).1 = answer,
    (reader.processLine sources line).2 = later at hstep ⊢
  cases hstep with
  | header path number record => exact hclose
  | passed other idle => rfl
  | ending script record opened => exact hclose
  | furniture script record opened => rfl
  | instruction columns script inst relocator record opened placed => rfl
  | fault columns script fault relocator record opened failed => rfl

/-- Reading lines leaves what is known of the line after the last. -/
theorem fragment_processLines (sources : Sources) (reader : Reader) (lines : List String) :
    (reader.processLines sources lines).2.fragment = reader.fragment := by
  induction lines generalizing reader with
  | nil => rfl
  | cons line rest ih =>
      have hfirst := reader.fragment_processLine sources line
      rw [processLines_cons]
      rcases hline : reader.processLine sources line with ⟨fault | consumed, later⟩
      · rwa [hline] at hfirst
      · rw [hline] at hfirst
        exact (ih later).trans hfirst

/-- The reader with another start of a line. -/
def withFragment (fragment : String) (reader : Reader) : Reader :=
  { reader with fragment := fragment }

/-- Lines read behind others, by a reader from which the scripts of the others were taken and which
knows something of the line after them. -/
theorem processLines_append_withTaken {reader mid : Reader} {before : List String}
    {results : List LineResult} {taken : List Script}
    (h : reader.processLines sources before = (.ok results, mid.withTaken taken))
    (fragment : String) (lines : List String) :
    reader.processLines sources (before ++ lines)
      = (((mid.withFragment fragment).processLines sources lines).1.map (results ++ ·),
          ((mid.withFragment fragment).processLines sources lines).2.withTaken taken) := by
  -- What is known of the line after them does not matter.
  have hlines : (mid.withTaken taken).processLines sources lines
      = (((mid.withFragment fragment).processLines sources lines).1,
          ((mid.withFragment fragment).processLines sources lines).2.withTaken taken) :=
    processLines_withTaken sources taken (mid.withFragment fragment) lines
  rw [processLines_append, h]
  simp only [hlines]

/-- A chunk: its complete lines are read, the first of them from where the last chunk ended. -/
theorem feed_eq (reader : Reader) (chunk : String) :
    reader.feed sources chunk
      = (reader.withFragment (Text.unfinished (reader.fragment ++ chunk))).processLines sources
          (Text.completeLines (reader.fragment ++ chunk)) := rfl

/-- The end of the trace, with all lines read. -/
theorem finish_ok {reader later : Reader} {results : List LineResult}
    (h : (reader.withFragment "").processLines sources
        (if reader.fragment = "" then [] else [reader.fragment]) = (.ok results, later)) :
    reader.finish sources = (.ok results, later.close) := by
  unfold withFragment at h
  simp only [finish, h]

/-- The end of the trace, with a line that fails. -/
theorem finish_error {reader later : Reader} {fault : Fault}
    (h : (reader.withFragment "").processLines sources
        (if reader.fragment = "" then [] else [reader.fragment]) = (.error fault, later)) :
    reader.finish sources = (.error fault, later) := by
  unfold withFragment at h
  simp only [finish, h]

end Reader

end LineCoverage
