import LineCoverage.Proofs.Coverage.FirstSeen
import LineCoverage.Proofs.Coverage.Separation
import LineCoverage.Proofs.Relocation.Transparency

/-!
# `LineCoverage.Proofs.Coverage.Concatenation`: two traces one after the other

Where a trace ends with a complete line and another begins with a header, both
can be read as one. The last script of the first trace may be open by then, and
the header closes it. `ingest_concatenated` says what comes of the two: the lines
passed on of both, and the coverage of the scripts of both.

The reader that has read the first trace is not the reader that begins the
second. It has complete scripts, and a relocator that has read files. `Continues`
says that this is all, and that the relocator answers like one that has read
nothing (`Relocates`), so both readers read the same from there on.

The same trace twice has the files, lines and instructions of the trace. Each
record meets itself in its own place, and of the records of one site the last
one was last before (`files_ofScripts_append_self`).
-/

set_option autoImplicit false

namespace LineCoverage

open Text

variable {sources : Sources} {relocating : Bool}

/-- The scripts of a text, read with relocation or without. -/
def scriptsRead (sources : Sources) (relocating : Bool) (text : String) :
    Except Fault (List Script) :=
  let (results, reader) :=
    (Reader.start (Relocator.freshIf relocating)).processLines sources (linesOf text)
  results.map fun _ => reader.close.completed

/-! ### A reader that has read before -/

namespace Reader

/-- A reader relocates or does not, and what its relocator keeps is what can be read. -/
structure Relocates (sources : Sources) (relocating : Bool) (reader : Reader) : Prop where
  isSome : reader.relocator.isSome = relocating
  faithful : ∀ relocator, reader.relocator = some relocator →
    Relocator.Faithful sources relocator

/-- Before the first line. -/
theorem relocates_start (sources : Sources) (relocating : Bool) :
    Relocates sources relocating (start (Relocator.freshIf relocating)) where
  isSome := by cases relocating <;> rfl
  faithful relocator h := by
    cases relocating with
    | false => cases h
    | true =>
        cases h
        exact Relocator.faithful_fresh sources

variable {reader : Reader}

/-- A line is found by what can be read, whatever was read before. -/
theorem Relocates.locate (h : Relocates sources relocating reader) (place : Location) :
    (reader.locate sources place).1
        = (if relocating then originFrom sources place else .ok place) ∧
      Relocates sources relocating (reader.locate sources place).2 := by
  have hsome := h.isSome
  cases hrelocator : reader.relocator with
  | none =>
      rw [hrelocator] at hsome
      rw [locate_of_none sources hrelocator, ← hsome]
      exact ⟨rfl, by rw [hsome]; exact h⟩
  | some relocator =>
      rw [hrelocator] at hsome
      obtain ⟨hanswer, hlater⟩ := (h.faithful relocator hrelocator).relocate place
      rw [locate_of_some hrelocator, ← hsome]
      refine ⟨hanswer, rfl, fun other hother => ?_⟩
      obtain rfl := Option.some.inj hother
      exact hlater

/-- An instruction is read the same, whatever was read before. -/
theorem Relocates.instruction {other : Reader} (h : Relocates sources relocating reader)
    (hother : Relocates sources relocating other) (script : Script) (columns : InstructionText) :
    (other.instruction sources script columns).1 = (reader.instruction sources script columns).1 ∧
      Relocates sources relocating (reader.instruction sources script columns).2 := by
  unfold Reader.instruction
  cases Numeral.read columns.line with
  | error fault => exact ⟨rfl, h⟩
  | ok line =>
      obtain ⟨hplace, hlater⟩ := h.locate ⟨script.path, line⟩
      obtain ⟨hplace', -⟩ := hother.locate ⟨script.path, line⟩
      -- Both find the line where the sources say, so their answers are the same.
      rw [← hplace] at hplace'
      dsimp only
      generalize reader.locate sources ⟨script.path, line⟩ = call at hplace' hlater ⊢
      generalize other.locate sources ⟨script.path, line⟩ = call' at hplace' ⊢
      obtain ⟨answer, later⟩ := call
      obtain ⟨answer', later'⟩ := call'
      obtain rfl : answer' = answer := hplace'
      cases answer' with
      | error fault => exact ⟨rfl, hlater⟩
      | ok location =>
          -- What the relocator has read it keeps, also where a number behind fails.
          cases Numeral.read columns.pc with
          | error fault => exact ⟨rfl, hlater⟩
          | ok pc =>
              cases Numeral.read columns.count with
              | error fault => exact ⟨rfl, hlater⟩
              | ok count => exact ⟨rfl, hlater⟩

/-- Nothing but the relocator matters. -/
theorem Relocates.congr {other : Reader} (h : Relocates sources relocating reader)
    (heq : other.relocator = reader.relocator) : Relocates sources relocating other where
  isSome := by rw [heq]; exact h.isSome
  faithful := by rw [heq]; exact h.faithful

/-- Closing a script leaves the relocator. -/
theorem Relocates.close (h : Relocates sources relocating reader) :
    Relocates sources relocating reader.close := by
  unfold Reader.close
  split
  · exact h
  · exact h.congr rfl

/-- A reader `together` that has the scripts `earlier` from before, and otherwise what the reader
`alone` has. -/
structure Continues (sources : Sources) (relocating : Bool) (earlier : List Script)
    (alone together : Reader) : Prop where
  completed : together.completed = earlier ++ alone.completed
  current : together.current = alone.current
  alone : Relocates sources relocating alone
  together : Relocates sources relocating together

variable {earlier : List Script} {alone together : Reader}

/-- Both readers close the same script. -/
theorem Continues.close (h : Continues sources relocating earlier alone together) :
    Continues sources relocating earlier alone.close together.close where
  completed := by
    unfold Reader.close
    rw [h.current]
    cases alone.current with
    | none => exact h.completed
    | some script => simp [h.completed]
  current := by rw [current_close, current_close]
  alone := h.alone.close
  together := h.together.close

/-- Both readers read an instruction alike. -/
theorem Continues.instruction (h : Continues sources relocating earlier alone together)
    (script : Script) (columns : InstructionText) :
    (together.instruction sources script columns).1
        = (alone.instruction sources script columns).1 ∧
      Continues sources relocating earlier (alone.instruction sources script columns).2
        (together.instruction sources script columns).2 := by
  obtain ⟨hanswer, halone⟩ := h.alone.instruction h.together script columns
  obtain ⟨-, htogether⟩ := h.together.instruction h.alone script columns
  obtain ⟨relocator, hlater⟩ := alone.exists_instruction sources script columns
  obtain ⟨relocator', hlater'⟩ := together.exists_instruction sources script columns
  refine ⟨hanswer, ?_, ?_, halone, htogether⟩
  · rw [hlater, hlater']
    exact h.completed
  · rw [hlater, hlater']
    exact h.current

/-- Both readers read a line alike. -/
theorem Continues.processLine (h : Continues sources relocating earlier alone together)
    (line : String) :
    (together.processLine sources line).1 = (alone.processLine sources line).1 ∧
      Continues sources relocating earlier (alone.processLine sources line).2
        (together.processLine sources line).2 := by
  have hheader : ∀ opened : Script, Continues sources relocating earlier
      { alone.close with current := some opened } { together.close with current := some opened } :=
    fun opened =>
      { completed := h.close.completed
        current := rfl
        alone := h.close.alone.congr rfl
        together := h.close.together.congr rfl }
  unfold Reader.processLine
  rw [h.current]
  -- Which record it is and whether a script is open is the same for both.
  rcases Record.ofLine? line with _ | (⟨path, number⟩ | _ | columns | _)
  · cases alone.current <;> exact ⟨rfl, h⟩
  · exact ⟨rfl, hheader (Script.opened path number)⟩
  · cases alone.current with
    | none => exact ⟨rfl, h⟩
    | some script => exact ⟨rfl, h.close⟩
  · cases alone.current with
    | none => exact ⟨rfl, h⟩
    | some script =>
        obtain ⟨hanswer, hlater⟩ := h.instruction script columns
        dsimp only
        generalize alone.instruction sources script columns = call at hanswer hlater ⊢
        generalize together.instruction sources script columns = call' at hanswer hlater ⊢
        obtain ⟨answer, later⟩ := call
        obtain ⟨answer', later'⟩ := call'
        obtain rfl : answer' = answer := hanswer
        cases answer' with
        | error fault => exact ⟨rfl, hlater⟩
        | ok inst =>
            exact ⟨rfl, hlater.completed, rfl, hlater.alone.congr rfl, hlater.together.congr rfl⟩
  · cases alone.current <;> exact ⟨rfl, h⟩

/-- What holds of two readers after a line that both read alike, and goes on to hold over the lines
behind it, holds after all these lines. -/
theorem processLines_cons_alike {R : Reader → Reader → Prop} {line : String} {rest : List String}
    (hline : (together.processLine sources line).1 = (alone.processLine sources line).1)
    (hlater : R (alone.processLine sources line).2 (together.processLine sources line).2)
    (hrest : ∀ alone together, R alone together →
      (together.processLines sources rest).1 = (alone.processLines sources rest).1 ∧
        R (alone.processLines sources rest).2 (together.processLines sources rest).2) :
    (together.processLines sources (line :: rest)).1
        = (alone.processLines sources (line :: rest)).1 ∧
      R (alone.processLines sources (line :: rest)).2
        (together.processLines sources (line :: rest)).2 := by
  rw [processLines_cons, processLines_cons]
  generalize alone.processLine sources line = call at hline hlater ⊢
  generalize together.processLine sources line = call' at hline hlater ⊢
  obtain ⟨answer, later⟩ := call
  obtain ⟨answer', later'⟩ := call'
  obtain rfl : answer' = answer := hline
  cases answer' with
  | error fault => exact ⟨rfl, hlater⟩
  | ok consumed =>
      obtain ⟨hothers, hlast⟩ := hrest later later' hlater
      exact ⟨congrArg (Except.map _) hothers, hlast⟩

/-- Both readers read lines alike. -/
theorem Continues.processLines (h : Continues sources relocating earlier alone together)
    (lines : List String) :
    (together.processLines sources lines).1 = (alone.processLines sources lines).1 ∧
      Continues sources relocating earlier (alone.processLines sources lines).2
        (together.processLines sources lines).2 := by
  induction lines generalizing alone together with
  | nil => exact ⟨rfl, h⟩
  | cons line rest ih =>
      obtain ⟨hline, hlater⟩ := h.processLine line
      exact processLines_cons_alike hline hlater fun _ _ => ih

/-- Lines leave what a relocator keeps to be what can be read. -/
theorem Relocates.processLines (h : Relocates sources relocating reader) (lines : List String) :
    Relocates sources relocating (reader.processLines sources lines).2 := by
  -- A reader continues itself, with nothing from before.
  have hself : Continues sources relocating [] reader reader := ⟨rfl, rfl, h, h⟩
  exact (hself.processLines lines).2.alone

/-- A header, and the lines behind it, are read alike by a reader that has read before and by one
that has not. -/
theorem Relocates.continues_of_header (h : Relocates sources relocating reader) {header : String}
    (hheader : Record.isHeader header = true) (rest : List String) :
    (reader.processLines sources (header :: rest)).1
        = ((start (Relocator.freshIf relocating)).processLines sources (header :: rest)).1 ∧
      Continues sources relocating reader.close.completed
        ((start (Relocator.freshIf relocating)).processLines sources (header :: rest)).2
        (reader.processLines sources (header :: rest)).2 := by
  obtain ⟨path, number, hrecord⟩ := Record.exists_header hheader
  -- The header closes what is open, and both readers open the same script.
  refine processLines_cons_alike ?_ ?_ fun _ _ hlater => hlater.processLines rest
  · rw [processLine_of_header _ hrecord, processLine_of_header _ hrecord]
  · rw [processLine_of_header _ hrecord, processLine_of_header _ hrecord]
    exact
      { completed := (List.append_nil _).symm
        current := rfl
        alone := (relocates_start sources relocating).congr rfl
        together := h.close.congr rfl }

end Reader

/-! ### The same scripts twice -/

namespace Coverage

/-- On a line, every record meets itself in its own place. -/
theorem line_append_self (insts : List Instruction) :
    Table.gather Instruction.site (fun inst _ => inst) (insts ++ insts)
      = Table.gather Instruction.site (fun inst _ => inst) insts := by
  refine Table.ext_get? (Table.keys_gather_append_self insts) fun site => ?_
  rw [(insts_gather (insts ++ insts)).2, (insts_gather insts).2, List.filter_append]
  -- The last record of a site was the last one before.
  rcases List.eq_nil_or_concat (insts.filter (·.site = site)) with hnil | ⟨earlier, last, hlast⟩
  · rw [hnil]
    rfl
  · rw [hlast, List.concat_eq_append, ← List.append_assoc, List.getLast?_concat,
      List.getLast?_concat]

/-- In a file, every line meets itself. -/
theorem lines_append_self (insts : List Instruction) :
    Table.gather (·.location.line) Line.enter (insts ++ insts)
      = Table.gather (·.location.line) Line.enter insts := by
  refine Table.gather_append_self
    (fun _ insts => ⟨Table.gather Instruction.site (fun inst _ => inst) insts⟩) ?_ ?_ ?_
  · intro inst
    rfl
  · intro earlier inst
    simp only [Table.gather_concat]
    rfl
  · intro number own
    simp only [line_append_self]

/-- The files of scripts that come twice are those of the scripts. -/
theorem files_ofScripts_append_self (scripts : List Script) :
    (ofScripts (scripts ++ scripts)).files = (ofScripts scripts).files := by
  rw [files_ofScripts, files_ofScripts, instructionsOf, List.flatMap_append, ← instructionsOf]
  refine Table.gather_append_self
    (fun name insts => ⟨name, Table.gather (·.location.line) Line.enter insts⟩) ?_ ?_ ?_
  · intro inst
    rfl
  · intro earlier inst
    simp only [Table.gather_concat]
    rfl
  · intro name own
    simp only [lines_append_self]

end Coverage

/-! ### Two traces -/

/-- Without a script there is nothing that a coverage could hold. -/
theorem Reader.getD_coverage {relocator : Option Relocator} {lines : List String}
    {results : List LineResult} {reader : Reader}
    (h : (Reader.start relocator).processLines sources lines = (.ok results, reader)) :
    reader.coverage.getD .empty = Coverage.ofScripts reader.close.completed := by
  unfold Reader.coverage
  split
  · rename_i hempty
    rw [Reader.isEmpty_close_of_processLines h] at hempty
    have hidle : (Reader.start relocator).processLines sources lines
        = (.ok (lines.map (⟨·, false⟩)), Reader.start relocator) :=
      Reader.processLines_of_idle sources rfl (by simpa using hempty)
    rw [h] at hidle
    obtain rfl := (Prod.mk.inj hidle).2
    rfl
  · rfl

/-- With a header among the lines there is a coverage. -/
theorem Reader.coverage_of_header {relocator : Option Relocator} {lines : List String}
    {results : List LineResult} {reader : Reader}
    (h : (Reader.start relocator).processLines sources lines = (.ok results, reader))
    (hheader : lines.any Record.isHeader = true) :
    reader.coverage = some (Coverage.ofScripts reader.close.completed) := by
  simp [Reader.coverage, Reader.isEmpty_close_of_processLines h, hheader]

/-- Lines in front of a trace that begins with a header: both are read, and the scripts of the
trace stand behind those of the lines, of which the last one is closed. -/
theorem Reader.processLines_append_header {lines others : List String}
    {results results' : List LineResult} {reader reader' : Reader}
    (hread : (Reader.start (Relocator.freshIf relocating)).processLines sources lines
      = (.ok results, reader))
    (hothers : (Reader.start (Relocator.freshIf relocating)).processLines sources others
      = (.ok results', reader'))
    {header : String} {rest : List String} (hfirst : others = header :: rest)
    (hheader : Record.isHeader header = true) :
    ∃ together, (Reader.start (Relocator.freshIf relocating)).processLines sources (lines ++ others)
        = (.ok (results ++ results'), together) ∧
      together.close.completed = reader.close.completed ++ reader'.close.completed := by
  have hrelocates : Relocates sources relocating reader := by
    have hlater := (relocates_start sources relocating).processLines lines
    rwa [hread] at hlater
  obtain ⟨hanswer, hcontinues⟩ := hrelocates.continues_of_header hheader rest
  rw [← hfirst, hothers] at hanswer hcontinues
  refine ⟨(reader.processLines sources others).2, ?_, hcontinues.close.completed⟩
  rw [processLines_append, hread]
  simp only [hanswer, Except.map]

/-- **Two traces can be read as one.** Let a trace be empty or end with a complete line, and let
another begin with a header. If both can be ingested, so can both as one: the lines passed on of
the first come before those of the second, and the scripts of the second are added to the coverage
of the first. The same trace twice has the files of the trace. -/
theorem ingest_concatenated (sources : Sources) (relocating : Bool)
    {left right both passedLeft passedRight : List String}
    {foundLeft foundRight : Option Coverage}
    (hboth : String.join both = String.join left ++ String.join right)
    (hend : String.join left = "" ∨ ∃ body, String.join left = body ++ "\n")
    (hheader : ∃ header rest, linesOf (String.join right) = header :: rest ∧
      Record.isHeader header = true)
    (hleft : ingest sources (Relocator.freshIf relocating) left = ⟨passedLeft, .ok foundLeft⟩)
    (hright : ingest sources (Relocator.freshIf relocating) right = ⟨passedRight, .ok foundRight⟩) :
    ∃ scripts coverage,
      scriptsRead sources relocating (String.join right) = .ok scripts ∧
      foundRight = some (Coverage.ofScripts scripts) ∧
      ingest sources (Relocator.freshIf relocating) both
        = ⟨passedLeft ++ passedRight, .ok (some coverage)⟩ ∧
      coverage = scripts.foldl Coverage.addScript (foundLeft.getD .empty) ∧
      coverage.scriptCount
        = (foundLeft.getD .empty).scriptCount + (foundRight.getD .empty).scriptCount ∧
      (String.join left = String.join right →
        passedLeft = passedRight ∧
        coverage.files = (foundRight.getD .empty).files ∧
        coverage.scriptCount = 2 * (foundRight.getD .empty).scriptCount) := by
  obtain ⟨results, reader, hread, rfl, rfl⟩ := ingest_eq_ok_iff.mp hleft
  obtain ⟨results', reader', hread', rfl, rfl⟩ := ingest_eq_ok_iff.mp hright
  obtain ⟨header, rest, hfirst, hheader⟩ := hheader
  have hunfinished : unfinished (String.join left) = "" := by
    rcases hend with hempty | ⟨body, hbreak⟩
    · rw [hempty, unfinished_empty]
    · rw [hbreak, unfinished_break]
  have hlines := linesOf_append hunfinished (String.join right)
  obtain ⟨together, htogether, hscripts⟩ :=
    Reader.processLines_append_header hread hread' hfirst hheader
  rw [← hlines, ← hboth] at htogether
  have hfound : reader'.coverage = some (Coverage.ofScripts reader'.close.completed) :=
    Reader.coverage_of_header hread' (by simp [hfirst, hheader])
  have hfound' : together.coverage
      = some (Coverage.ofScripts (reader.close.completed ++ reader'.close.completed)) := by
    rw [← hscripts]
    exact Reader.coverage_of_header htogether (by simp [hboth, hlines, hfirst, hheader])
  have hadded : Coverage.ofScripts (reader.close.completed ++ reader'.close.completed)
      = reader'.close.completed.foldl Coverage.addScript (reader.coverage.getD .empty) := by
    rw [Reader.getD_coverage hread]
    exact List.foldl_append
  have hcount := Coverage.scriptCount_ofScripts
    (reader.close.completed ++ reader'.close.completed)
  rw [List.length_append, ← Coverage.scriptCount_ofScripts reader.close.completed,
    ← Coverage.scriptCount_ofScripts reader'.close.completed, ← Reader.getD_coverage hread,
    ← Reader.getD_coverage hread'] at hcount
  refine ⟨reader'.close.completed, _, ?_, hfound, ingest_eq_ok_iff.mpr ⟨_, together, htogether,
    (Intake.unconsumed_append _ _).symm, hfound'.symm⟩, hadded, hcount, ?_⟩
  · rw [scriptsRead, hread']
    rfl
  · intro hsame
    rw [hsame, hread'] at hread
    cases hread
    refine ⟨rfl, ?_, by rw [hcount, Nat.two_mul]⟩
    rw [Coverage.files_ofScripts_append_self, Reader.getD_coverage hread']

/-- A trace that ends within a script, once and once more. -/
theorem ingest_concatenated_repeated :
    ∃ found coverage,
      ingest (fun _ => .ok "//@line 7 \"v.js\"\n") (some .fresh)
          ["--- SCRIPT g.js:1 ---\nhello\n", "00000:  2  [1] op\n"]
        = ⟨["hello"], .ok (some found)⟩ ∧
      ingest (fun _ => .ok "//@line 7 \"v.js\"\n") (some .fresh)
          ["--- SCRIPT g.js:1 ---\nhello\n", "00000:  2  [1] op\n",
            "--- SCRIPT g.js:1 ---\nhello\n", "00000:  2  [1] op\n"]
        = ⟨["hello", "hello"], .ok (some coverage)⟩ ∧
      coverage.files = found.files ∧ coverage.scriptCount = 2 * found.scriptCount := by
  have hread : ((Reader.start (some .fresh)).processLines (fun _ => .ok "//@line 7 \"v.js\"\n")
      (linesOf (String.join ["--- SCRIPT g.js:1 ---\nhello\n", "00000:  2  [1] op\n"]))).1
      = .ok [⟨"--- SCRIPT g.js:1 ---", true⟩, ⟨"hello", false⟩, ⟨"00000:  2  [1] op", true⟩] := by
    rfl
  have htrace := (isBatch_join (fun _ => .ok "//@line 7 \"v.js\"\n") (some .fresh)
    ["--- SCRIPT g.js:1 ---\nhello\n", "00000:  2  [1] op\n"]).complete _ _ (Prod.ext hread rfl)
  have hend : String.join ["--- SCRIPT g.js:1 ---\nhello\n", "00000:  2  [1] op\n"]
      = "--- SCRIPT g.js:1 ---\nhello\n00000:  2  [1] op" ++ "\n" := by decide
  have hboth : String.join ["--- SCRIPT g.js:1 ---\nhello\n", "00000:  2  [1] op\n",
        "--- SCRIPT g.js:1 ---\nhello\n", "00000:  2  [1] op\n"]
      = String.join ["--- SCRIPT g.js:1 ---\nhello\n", "00000:  2  [1] op\n"]
        ++ String.join ["--- SCRIPT g.js:1 ---\nhello\n", "00000:  2  [1] op\n"] := by decide
  obtain ⟨scripts, coverage, -, -, hingest, -, -, hsame⟩ :=
    ingest_concatenated _ true hboth (.inr ⟨_, hend⟩) ⟨_, _, by rfl, by decide⟩ htrace htrace
  obtain ⟨-, hfiles, hcount⟩ := hsame rfl
  exact ⟨_, coverage, htrace, hingest, hfiles, hcount⟩

end LineCoverage
