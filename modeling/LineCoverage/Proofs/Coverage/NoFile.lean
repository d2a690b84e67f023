import LineCoverage.Proofs.Coverage.Concatenation
import LineCoverage.Proofs.Coverage.Placement
import LineCoverage.Proofs.Coverage.Selection
import LineCoverage.Proofs.Trace.Atomicity

/-!
# `LineCoverage.Proofs.Coverage.NoFile`: relocation and code that comes from no file

The engine reports code that comes from no file under a name that looks like one.
A page never asks for it (`Coverage.mem_defaultTargets`), but relocation does: it
reads the file of a script at its first instruction, whatever the file is called.

`Script.obstacle?` says what keeps a script from being moved, and the first of
these in the order of the trace is what comes of relocation. A reader without
relocation is followed side by side: as long as the one with relocation reads on,
nothing is in the way of the scripts (`Reader.Beside.obstacle?_eq_none`), and the
line at which it stops puts something there (`Reader.Beside.step`), which stays
(`Reader.obstacle?_of_processLines`).

`ingest_relocating_noFile` is about traces in which nothing else is in the way:
every number and every file that there should be can be read. Then it takes one
instruction that comes from no file to stop the whole trace, unless a file of
that name happens to be there.
-/

set_option autoImplicit false

namespace LineCoverage

open Text

variable {sources : Sources}

/-! ### What keeps scripts from being moved -/

/-- Why a script cannot be moved: its file, or the directives in it, cannot be read. A script
without instructions has nothing to move, and its file is not asked for. -/
def Script.obstacle? (sources : Sources) (script : Script) : Option Fault :=
  if script.instructions = #[] then none
  else
    match scanFrom sources script.path with
    | .error fault => some fault
    | .ok _ => none

/-- Nothing is in the way of a script without instructions, or of a file that can be read. -/
theorem Script.obstacle?_eq_none_iff {script : Script} :
    script.obstacle? sources = none ↔
      (script.instructions ≠ #[] →
        ∃ directives, scanFrom sources script.path = .ok directives) := by
  unfold obstacle?
  split
  · rename_i hempty
    simp [hempty]
  · rename_i hsome
    cases hscan : scanFrom sources script.path with
    | error fault => simp [hsome]
    | ok directives => simp

/-- A file that cannot be read is in the way of a script with an instruction. -/
theorem Script.obstacle?_push {script : Script} {fault : Fault}
    (h : scanFrom sources script.path = .error fault) (inst : Instruction) :
    (script.push inst).obstacle? sources = some fault := by
  have hpath : (script.push inst).path = script.path := rfl
  have hsome : (script.push inst).instructions ≠ #[] := by simp [Script.push]
  rw [obstacle?, if_neg hsome, hpath, h]

/-- What is in the way of a script stays there. -/
theorem Script.obstacle?_push_of_eq_some {script : Script} {fault : Fault}
    (h : script.obstacle? sources = some fault) (inst : Instruction) :
    (script.push inst).obstacle? sources = some fault := by
  unfold obstacle? at h
  split at h
  · cases h
  · split at h
    · rename_i failure hscan
      cases h
      exact obstacle?_push hscan inst
    · cases h

/-- Nothing is in the way of a script that moves. -/
theorem Script.MovesTo.obstacle?_eq_none {script moved : Script}
    (h : script.MovesTo sources moved) : script.obstacle? sources = none := by
  refine Script.obstacle?_eq_none_iff.mpr fun hsome => ?_
  obtain ⟨insts, hinsts, -⟩ := Script.placed_eq_ok_iff.mp h.placed
  obtain ⟨inst, rest, hlist⟩ := List.exists_cons_of_ne_nil (mt Array.toList_eq_nil_iff.mp hsome)
  cases hscan : scanFrom sources script.path with
  | ok directives => exact ⟨directives, rfl⟩
  | error fault =>
      -- The first instruction could not be placed.
      have hinst : inst.placed sources script.path = .error fault := by
        rw [Instruction.placed, originFrom, hscan]
        rfl
      rw [hlist, List.mapM_cons, hinst] at hinsts
      cases hinsts

namespace Reader

/-- The scripts that a reader has read, the open one last. -/
def scripts (reader : Reader) : List Script := reader.completed ++ reader.current.toList

variable {reader : Reader}

/-- After the open script is closed all scripts are complete. -/
theorem completed_close (reader : Reader) : reader.close.completed = reader.scripts := by
  rw [close_eq]
  rfl

/-- Closing the open script changes no script. -/
theorem scripts_close (reader : Reader) : reader.close.scripts = reader.scripts := by
  rw [scripts, completed_close, close_eq]
  simp

/-- A line changes no script but the last: a header adds a script, and an instruction is added to
the last one. -/
theorem scripts_of_processLine {line : String} {consumed : Bool} {later : Reader}
    (h : reader.processLine sources line = (.ok consumed, later)) :
    later.scripts = reader.scripts ∨
      (∃ path number, Record.ofLine? line = some (.header path number) ∧
        later.scripts = reader.scripts ++ [Script.opened path number]) ∨
      ∃ earlier script inst, reader.scripts = earlier ++ [script] ∧
        later.scripts = earlier ++ [script.push inst] := by
  have hstep := reader.step_processLine sources line
  rw [h] at hstep
  cases hstep with
  | header path number record =>
      refine .inr (.inl ⟨path, number, record, ?_⟩)
      rw [← completed_close reader]
      rfl
  | passed other idle => exact .inl rfl
  | ending script record opened => exact .inl (scripts_close reader)
  | furniture script record opened => exact .inl rfl
  | instruction columns script inst relocator record opened placed =>
      refine .inr (.inr ⟨reader.completed, script, inst, ?_, rfl⟩)
      rw [scripts, opened]
      rfl

/-- What keeps the scripts of a reader from being moved, the first of them in the order of the
trace. -/
def obstacle? (sources : Sources) (reader : Reader) : Option Fault :=
  reader.scripts.findSome? (Script.obstacle? sources)

/-- Whatever is read, what is in the way stays there. -/
theorem obstacle?_of_processLines {lines : List String} {results : List LineResult}
    {later : Reader} {fault : Fault} (h : reader.obstacle? sources = some fault)
    (hlines : reader.processLines sources lines = (.ok results, later)) :
    later.obstacle? sources = some fault := by
  induction lines generalizing reader results with
  | nil =>
      rw [processLines_nil] at hlines
      cases hlines
      exact h
  | cons line rest ih =>
      obtain ⟨consumed, mid, more, hline, hrest, -⟩ := processLines_cons_ok hlines
      refine ih ?_ hrest
      unfold obstacle? at h ⊢
      rcases scripts_of_processLine hline with
        hsame | ⟨path, number, -, hmore⟩ | ⟨earlier, script, inst, hbefore, hafter⟩
      · rw [hsame, h]
      · rw [hmore, List.findSome?_append, h]
        rfl
      · rw [hbefore, List.findSome?_append, Option.or_eq_some_iff] at h
        rw [hafter, List.findSome?_append, Option.or_eq_some_iff]
        refine h.imp_right fun ⟨hearlier, hscript⟩ => ⟨hearlier, ?_⟩
        have hscript : script.obstacle? sources = some fault := by simpa using hscript
        simpa using Script.obstacle?_push_of_eq_some hscript inst

/-- Every script was opened by a header, so what holds for the paths of the headers holds for the
files of the scripts. -/
theorem path_of_processLines {lines : List String} {results : List LineResult} {later : Reader}
    (hlines : reader.processLines sources lines = (.ok results, later)) {P : String → Prop}
    (hheaders : ∀ line ∈ lines, ∀ path number,
      Record.ofLine? line = some (.header path number) → P (String.ofList path))
    (h : ∀ script ∈ reader.scripts, P script.path) :
    ∀ script ∈ later.scripts, P script.path := by
  induction lines generalizing reader results with
  | nil =>
      rw [processLines_nil] at hlines
      cases hlines
      exact h
  | cons line rest ih =>
      obtain ⟨consumed, mid, others, hline, hrest, -⟩ := processLines_cons_ok hlines
      refine ih hrest (fun other hmem => hheaders other (List.mem_cons_of_mem line hmem)) ?_
      rcases scripts_of_processLine hline with
        hsame | ⟨path, number, hrecord, hmore⟩ | ⟨earlier, script, inst, hbefore, hafter⟩
      · rw [hsame]
        exact h
      · rw [hmore, List.forall_mem_append]
        refine ⟨h, ?_⟩
        simpa [Script.opened] using hheaders line List.mem_cons_self path number hrecord
      · rw [hbefore, List.forall_mem_append] at h
        rw [hafter, List.forall_mem_append]
        exact ⟨h.1, by simpa [Script.push] using h.2⟩

/-! ### Two readers side by side -/

variable {plain relocating : Reader}

/-- As long as the reader with relocation reads on, nothing is in the way of the scripts. -/
theorem Beside.obstacle?_eq_none (h : Beside sources plain relocating) :
    plain.obstacle? sources = none := by
  rw [obstacle?, ← completed_close]
  have hmoves := h.close.completed
  generalize plain.close.completed = scripts, relocating.close.completed = moved at hmoves
  induction hmoves with
  | nil => rfl
  | cons hscript _ ih =>
      rw [List.findSome?_cons, hscript.obstacle?_eq_none]
      exact ih

/-- An instruction that is read without relocation and not with it comes from a file that cannot
be read. -/
theorem Beside.scanFrom_of_instruction (h : Beside sources plain relocating)
    {script moved : Script} (hmoves : script.MovesTo sources moved) {columns : InstructionText}
    {inst : Instruction} {mid later : Reader} {fault : Fault}
    (hinst : plain.instruction sources script columns = (.ok inst, mid))
    (hfails : relocating.instruction sources moved columns = (.error fault, later)) :
    scanFrom sources script.path = .error fault := by
  obtain ⟨line, pc, count, location, hline, hpc, hcount, -, -⟩ := instruction_ok_iff.mp hinst
  obtain ⟨relocator, hrelocator, hfaithful⟩ := h.faithful
  have horigin := (hfaithful.relocate ⟨moved.path, line⟩).1
  rw [hmoves.named.2, originFrom] at horigin
  have hplace : relocating.locate sources ⟨script.path, line⟩ = _ := locate_of_some hrelocator _
  rw [horigin] at hplace
  cases hscan : scanFrom sources script.path with
  | error failure =>
      rw [hscan] at hplace
      unfold Reader.instruction at hfails
      simp only [hline, hmoves.named.2, hplace, Except.map] at hfails
      exact congrArg Except.error (Except.error.inj (congrArg Prod.fst hfails))
  | ok directives =>
      -- The numbers can be read, so with the line placed nothing is left to fail.
      rw [hscan] at hplace
      unfold Reader.instruction at hfails
      simp [hline, hmoves.named.2, hplace, hpc, hcount, Except.map] at hfails

/-- A line that can be read without relocation can be read with it, or else it puts something in
the way of the scripts. -/
theorem Beside.step (h : Beside sources plain relocating) {line : String} {consumed : Bool}
    {mid : Reader} (hline : plain.processLine sources line = (.ok consumed, mid)) :
    (∃ later, relocating.processLine sources line = (.ok consumed, later) ∧
      Beside sources mid later) ∨
    ∃ fault later, relocating.processLine sources line = (.error fault, later) ∧
      mid.obstacle? sources = some fault := by
  rcases hrelocating : relocating.processLine sources line with ⟨fault | same, later⟩
  · refine .inr ⟨fault, later, rfl, ?_⟩
    have hstep := relocating.step_processLine sources line
    rw [hrelocating] at hstep
    cases hstep with
    | fault columns moved _ relocator record hopen failed =>
        obtain ⟨script, hscript, hmoves⟩ := h.opened hopen
        rcases hinst : plain.instruction sources script columns with ⟨failure | inst, last⟩
        · rw [processLine_of_instruction_error record hscript hinst] at hline
          cases hline
        · have hscan := h.scanFrom_of_instruction hmoves hinst failed
          obtain ⟨relocator, hlast⟩ := plain.exists_instruction sources script columns
          rw [processLine_of_instruction_ok record hscript hinst] at hline
          rw [hinst] at hlast
          cases hlast
          cases hline
          have hbefore : plain.completed.findSome? (Script.obstacle? sources) = none := by
            have hnone := h.obstacle?_eq_none
            rw [obstacle?, scripts, List.findSome?_append, Option.or_eq_none_iff] at hnone
            exact hnone.1
          rw [obstacle?, scripts, List.findSome?_append, hbefore, Option.none_or]
          simpa using Script.obstacle?_push hscan inst
  · obtain ⟨other, hother, hbeside⟩ := h.processLine hrelocating
    cases hline.symm.trans hother
    exact .inl ⟨later, rfl, hbeside⟩

/-- Lines that can be read without relocation can be read with it, or else something is in the
way of their scripts. -/
theorem Beside.run (h : Beside sources plain relocating) {lines : List String}
    {results : List LineResult} {last : Reader}
    (hlines : plain.processLines sources lines = (.ok results, last)) :
    (∃ later, relocating.processLines sources lines = (.ok results, later) ∧
      Beside sources last later) ∨
    ∃ fault later, relocating.processLines sources lines = (.error fault, later) ∧
      last.obstacle? sources = some fault := by
  induction lines generalizing plain relocating results with
  | nil =>
      rw [processLines_nil] at hlines
      cases hlines
      exact .inl ⟨relocating, processLines_nil sources relocating, h⟩
  | cons line rest ih =>
      obtain ⟨consumed, mid, others, hline, hrest, rfl⟩ := processLines_cons_ok hlines
      rcases h.step hline with ⟨later, hlater, hbeside⟩ | ⟨fault, later, hfails, hobstacle⟩
      · simp only [processLines_cons, hlater]
        rcases ih hbeside hrest with ⟨final, hfinal, hend⟩ | ⟨fault, final, hfinal, hobstacle⟩
        · exact .inl ⟨final, by simp only [hfinal, Except.map], hend⟩
        · exact .inr ⟨fault, final, by simp only [hfinal, Except.map], hobstacle⟩
      · refine .inr ⟨fault, later, ?_, obstacle?_of_processLines hobstacle hrest⟩
        rw [processLines_cons, hfails]

end Reader

/-! ### What comes of a trace -/

/-- Every number of an instruction on a line can be read. -/
def Record.Legible (line : String) : Prop :=
  ∀ columns, ofLine? line = some (.instruction columns) →
    ∀ digits ∈ [columns.line, columns.pc, columns.count], digits.length ≤ maxDigits

/-- Without relocation it takes no more than legible numbers to read a trace. -/
theorem exists_scriptsOf {text : String} (h : ∀ line ∈ linesOf text, Record.Legible line)
    (sources : Sources) : ∃ scripts, scriptsOf sources text = .ok scripts := by
  unfold scriptsOf
  rcases hread : (Reader.start none).processLines sources (linesOf text)
    with ⟨fault | results, later⟩
  · obtain ⟨before, line, after, results, mid, hlines, hbefore, hfails⟩ :=
      Reader.exists_of_processLines_error hread
    have hplain : mid.relocator.isSome = false := by
      have hafter := ((Reader.relocates_start sources false).processLines before).isSome
      rwa [show Relocator.freshIf false = none from rfl, hbefore] at hafter
    obtain ⟨columns, script, hrecord, -, hcause⟩ := Reader.cause_of_processLine_error hfails
    rcases hcause with ⟨digits, hdigits, hlong, -⟩ | ⟨hrelocates, -⟩
    · have hmem : line ∈ linesOf text := by simp [hlines]
      exact absurd (h line hmem columns hrecord digits hdigits) (Nat.not_le.mpr hlong)
    · rw [hplain] at hrelocates
      cases hrelocates
  · exact ⟨later.close.completed, rfl⟩

/-- What holds for the paths of the headers of a text holds for the files of its scripts. -/
theorem path_of_scriptsOf {text : String} {scripts : List Script}
    (h : scriptsOf sources text = .ok scripts) {P : String → Prop}
    (hheaders : ∀ line ∈ linesOf text, ∀ path number,
      Record.ofLine? line = some (.header path number) → P (String.ofList path)) :
    ∀ script ∈ scripts, P script.path := by
  unfold scriptsOf at h
  rcases hread : (Reader.start none).processLines sources (linesOf text)
    with ⟨failure | results, last⟩
  · rw [hread] at h
    cases h
  · rw [hread] at h
    cases h
    rw [Reader.completed_close]
    exact Reader.path_of_processLines hread hheaders fun script hmem => by cases hmem

/-- What is in the way of the first script that cannot be moved is what comes of relocation. -/
theorem outcome_relocating_eq_error_iff {chunks : List String} {scripts : List Script}
    (h : scriptsOf sources (String.join chunks) = .ok scripts) (fault : Fault) :
    (ingest sources (some .fresh) chunks).outcome = .error fault ↔
      scripts.findSome? (Script.obstacle? sources) = some fault := by
  have hbatch := isBatch_join sources (some .fresh) chunks
  unfold scriptsOf at h
  rcases hread : (Reader.start none).processLines sources (linesOf (String.join chunks))
    with ⟨failure | results, last⟩
  · rw [hread] at h
    cases h
  · rw [hread] at h
    cases h
    rw [Reader.completed_close, ← Reader.obstacle?]
    rcases (Reader.beside_start sources).run hread with
      ⟨later, hlater, hbeside⟩ | ⟨failure, later, hfails, hobstacle⟩
    · rw [hbatch.complete results later hlater, hbeside.obstacle?_eq_none]
      simp
    · rw [(hbatch.fault failure later hfails).1, hobstacle]
      simp

/-- **One instruction that comes from no file stops relocation.** In a trace with numbers that can
be read, where the file of every header can be read, with its directives, unless it is the name
of code that comes from no file:

* relocation goes through exactly if every script of such a name either has no instructions or has
  a file that can be read all the same, with its directives;
* if it does not, it is the first such script that stops it;
* files of such a name are not among those that pages are made for. -/
theorem ingest_relocating_noFile {chunks : List String}
    (hnumbers : ∀ line ∈ linesOf (String.join chunks), Record.Legible line)
    (hfiles : ∀ line ∈ linesOf (String.join chunks), ∀ path number,
      Record.ofLine? line = some (.header path number) →
      baseName (String.ofList path) ≠ noFileName →
      ∃ directives, scanFrom sources (String.ofList path) = .ok directives) :
    ∃ scripts, scriptsOf sources (String.join chunks) = .ok scripts ∧
      ((∃ found, (ingest sources (some .fresh) chunks).outcome = .ok found) ↔
        ∀ script ∈ scripts, baseName script.path = noFileName → script.instructions ≠ #[] →
          ∃ directives, scanFrom sources script.path = .ok directives) ∧
      (∀ fault, (ingest sources (some .fresh) chunks).outcome = .error fault ↔
        ∃ earlier script later, scripts = earlier ++ script :: later ∧
          (∀ other ∈ earlier, other.obstacle? sources = none) ∧
          baseName script.path = noFileName ∧ script.obstacle? sources = some fault) ∧
      ∀ coverage : Coverage, ∀ name,
        name ∈ coverage.defaultTargets ↔
          name ∈ coverage.files.keys ∧ baseName name ≠ noFileName := by
  obtain ⟨scripts, hscripts⟩ := exists_scriptsOf hnumbers sources
  have herror := outcome_relocating_eq_error_iff hscripts
  have hreadable : ∀ script ∈ scripts, baseName script.path ≠ noFileName →
      ∃ directives, scanFrom sources script.path = .ok directives :=
    path_of_scriptsOf (P := fun path => baseName path ≠ noFileName →
      ∃ directives, scanFrom sources path = .ok directives) hscripts hfiles
  -- Only a script of no file can be in the way.
  have hnoFile : ∀ script ∈ scripts, script.obstacle? sources ≠ none →
      baseName script.path = noFileName := by
    intro script hmem hobstacle
    by_contra hfile
    exact hobstacle (Script.obstacle?_eq_none_iff.mpr fun _ => hreadable script hmem hfile)
  refine ⟨scripts, hscripts, ?_, fun fault => ?_, fun _ _ => Coverage.mem_defaultTargets⟩
  · have hfound : (∃ found, (ingest sources (some .fresh) chunks).outcome = .ok found) ↔
        scripts.findSome? (Script.obstacle? sources) = none := by
      cases houtcome : (ingest sources (some .fresh) chunks).outcome with
      | ok found =>
          rw [houtcome] at herror
          simpa [Option.eq_none_iff_forall_ne_some] using fun fault => (herror fault).not.mp nofun
      | error fault =>
          simp [(herror fault).mp houtcome]
    rw [hfound, List.findSome?_eq_none_iff]
    constructor
    · exact fun hall script hmem _ => Script.obstacle?_eq_none_iff.mp (hall script hmem)
    · intro hall script hmem
      by_contra hobstacle
      have hname := hnoFile script hmem hobstacle
      exact hobstacle (Script.obstacle?_eq_none_iff.mpr (hall script hmem hname))
  · rw [herror, List.findSome?_eq_some_iff]
    constructor
    · rintro ⟨earlier, script, later, rfl, hobstacle, hearlier⟩
      have hname := hnoFile script (by simp) (by simp [hobstacle])
      exact ⟨earlier, script, later, rfl, hearlier, hname, hobstacle⟩
    · rintro ⟨earlier, script, later, rfl, hearlier, -, hobstacle⟩
      exact ⟨earlier, script, later, rfl, hobstacle, hearlier⟩

/-- One generated file, and no other. -/
def onlyGenerated : Sources := fun path =>
  if path = "a.js" then .ok "//@line 10 \"lib.js\"\nx\n" else .error (.path path .missing)

/-- Lines of a trace with an instruction of the generated file, and one that comes from no file. -/
theorem onlyGenerated_readable {lines : List String}
    (h : lines ⊆ ["--- SCRIPT a.js:1 ---", "00000:     2  [   3] op", "--- SCRIPT (null):1 ---",
      "00000:     1  [   1] stop"]) :
    (∀ line ∈ lines, Record.Legible line) ∧
    ∀ line ∈ lines, ∀ path number, Record.ofLine? line = some (.header path number) →
      baseName (String.ofList path) ≠ noFileName →
      ∃ directives, scanFrom onlyGenerated (String.ofList path) = .ok directives := by
  have hgenerated : Record.ofLine? "--- SCRIPT a.js:1 ---"
      = some (.header ['a', '.', 'j', 's'] ['1']) := by rfl
  have hop : Record.ofLine? "00000:     2  [   3] op"
      = some (.instruction ⟨['0', '0', '0', '0', '0'], ['2'], false, ['3'], ['o', 'p']⟩) := by rfl
  have hnoFile : Record.ofLine? "--- SCRIPT (null):1 ---"
      = some (.header ['(', 'n', 'u', 'l', 'l', ')'] ['1']) := by rfl
  have hstop : Record.ofLine? "00000:     1  [   1] stop"
      = some (.instruction ⟨['0', '0', '0', '0', '0'], ['1'], false, ['1'],
          ['s', 't', 'o', 'p']⟩) := by rfl
  have hcases : ∀ line ∈ lines, line = "--- SCRIPT a.js:1 ---" ∨ line = "00000:     2  [   3] op" ∨
      line = "--- SCRIPT (null):1 ---" ∨ line = "00000:     1  [   1] stop" := by
    intro line hmem
    simpa using h hmem
  constructor
  · intro line hmem columns hrecord digits hdigits
    rcases hcases line hmem with rfl | rfl | rfl | rfl
    · cases hgenerated.symm.trans hrecord
    · cases hop.symm.trans hrecord
      revert digits
      decide
    · cases hnoFile.symm.trans hrecord
    · cases hstop.symm.trans hrecord
      revert digits
      decide
  · intro line hmem path number hrecord hname
    rcases hcases line hmem with rfl | rfl | rfl | rfl
    · cases hgenerated.symm.trans hrecord
      exact ⟨[⟨1, 10, "lib.js"⟩], by rfl⟩
    · cases hop.symm.trans hrecord
    · cases hnoFile.symm.trans hrecord
      exact absurd (by rfl) hname
    · cases hstop.symm.trans hrecord

/-- A script that comes from no file stops nothing if it has no instruction. -/
theorem ingest_relocating_noFile_empty :
    ∃ found, (ingest onlyGenerated (some .fresh)
      ["--- SCRIPT a.js:1 ---\n00000:     2  [   3] op\n--- SCRIPT (null):1 ---\n"]).outcome
        = .ok found := by
  have hlines : linesOf (String.join
      ["--- SCRIPT a.js:1 ---\n00000:     2  [   3] op\n--- SCRIPT (null):1 ---\n"])
      ⊆ ["--- SCRIPT a.js:1 ---", "00000:     2  [   3] op", "--- SCRIPT (null):1 ---",
          "00000:     1  [   1] stop"] := by
    decide
  obtain ⟨hnumbers, hfiles⟩ := onlyGenerated_readable hlines
  obtain ⟨scripts, hscripts, hfound, -, -⟩ := ingest_relocating_noFile hnumbers hfiles
  have hread : scriptsOf onlyGenerated (String.join
      ["--- SCRIPT a.js:1 ---\n00000:     2  [   3] op\n--- SCRIPT (null):1 ---\n"])
      = .ok [⟨"a.js:1", "a.js", #[⟨"a.js:1", 0, ⟨"a.js", 2⟩, 3, "op", false⟩]⟩,
          ⟨"(null):1", "(null)", #[]⟩] := by
    rfl
  cases hread.symm.trans hscripts
  refine hfound.mpr fun script hmem hname hsome => ?_
  simp only [List.mem_cons, List.not_mem_nil, or_false] at hmem
  rcases hmem with rfl | rfl
  · exact absurd hname (by decide)
  · exact absurd rfl hsome

/-- A script that comes from no file stops the whole trace if it has one. -/
theorem ingest_relocating_noFile_missing :
    (∀ line ∈ linesOf (String.join ["--- SCRIPT a.js:1 ---\n00000:     2  [   3] op\n",
      "--- SCRIPT (null):1 ---\n00000:     1  [   1] stop\n"]), Record.Legible line) ∧
    (∀ line ∈ linesOf (String.join ["--- SCRIPT a.js:1 ---\n00000:     2  [   3] op\n",
      "--- SCRIPT (null):1 ---\n00000:     1  [   1] stop\n"]), ∀ path number,
      Record.ofLine? line = some (.header path number) →
      baseName (String.ofList path) ≠ noFileName →
      ∃ directives, scanFrom onlyGenerated (String.ofList path) = .ok directives) ∧
    (ingest onlyGenerated (some .fresh) ["--- SCRIPT a.js:1 ---\n00000:     2  [   3] op\n",
      "--- SCRIPT (null):1 ---\n00000:     1  [   1] stop\n"]).outcome
        = .error (.path "(null)" .missing) := by
  have hlines : linesOf (String.join ["--- SCRIPT a.js:1 ---\n00000:     2  [   3] op\n",
      "--- SCRIPT (null):1 ---\n00000:     1  [   1] stop\n"])
      = ["--- SCRIPT a.js:1 ---", "00000:     2  [   3] op", "--- SCRIPT (null):1 ---",
          "00000:     1  [   1] stop"] := by
    rfl
  rw [hlines]
  obtain ⟨hnumbers, hfiles⟩ := onlyGenerated_readable (List.Subset.refl _)
  exact ⟨hnumbers, hfiles, by rfl⟩

end LineCoverage
