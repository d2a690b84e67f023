import LineCoverage.Proofs.Coverage.Chunking
import LineCoverage.Proofs.Coverage.FirstSeen
import LineCoverage.Proofs.Coverage.Tally
import LineCoverage.Proofs.Relocation.Transparency
import LineCoverage.Proofs.Trace.Record

/-!
# `LineCoverage.Proofs.Coverage.WellFormed`: what the coverage of a trace is made of

A coverage that was read from a trace has no empty files and no empty lines, and
an instruction is kept in the file, on the line and at the site that it names
itself. `Coverage.kept_ofScripts` says this of any scripts, since a file and a
line come into being with their first instruction.

What the instructions themselves look like is decided where they are read.
`Instruction.Sound` lists it: a script that a header of the trace opened, numbers
that are not negative, and a disassembly on one line without blanks around it.
Relocation subtracts, so that a line number could fall below zero. It does not,
because only a directive before the line counts (`Directive.origin_nonneg`).

`Reader.Sound` carries this through a trace: `Reader.Sound.step` for one line and
`Reader.Sound.processLines` for all of them. `ingest_wellFormed` puts the two
parts together.
-/

set_option autoImplicit false

namespace LineCoverage

open Text

/-! ### Instructions as a trace gives them -/

/-- A header among some lines opens the script of this name: a path, a colon and digits. -/
def Record.Opens (lines : List String) (name : String) : Prop :=
  ∃ line ∈ lines, Record.isHeader line = true ∧ ∃ path digits returns,
    line.toList = "--- SCRIPT ".toList ++ path ++ ':' :: digits ++ " ---".toList ++ returns ∧
    (∀ c ∈ returns, c = '\r') ∧ digits ≠ [] ∧ (∀ c ∈ digits, isDigit c = true) ∧
    name = String.ofList (path ++ ':' :: digits)

/-- An instruction as it is read from some lines, wherever it is placed. -/
structure Instruction.Sound (lines : List String) (inst : Instruction) : Prop where
  script : Record.Opens lines inst.script
  pc : 0 ≤ inst.pc
  line : 0 ≤ inst.location.line
  count : 0 ≤ inst.count
  asm : Trimmed inst.asm.toList

/-- A script as it is read from some lines. -/
structure Script.Sound (lines : List String) (script : Script) : Prop where
  name : Record.Opens lines script.name
  instructions : ∀ inst ∈ script.instructions, inst.Sound lines

/-- A script that a header opens has no instruction yet. -/
theorem Script.sound_opened {lines : List String} {line : String} (hmem : line ∈ lines)
    {path number : List Char} (hrecord : Record.ofLine? line = some (.header path number)) :
    (Script.opened path number).Sound lines where
  name := by
    obtain ⟨returns, hline, hreturns, -, -, hnumber, hdigits⟩ := Record.line_of_header hrecord
    refine ⟨line, hmem, ?_, path, number, returns, hline, hreturns, hnumber, hdigits, rfl⟩
    simp [Record.isHeader, hrecord]
  instructions inst hinst := by simp [Script.opened] at hinst

/-- One more sound instruction leaves a script sound. -/
theorem Script.Sound.push {lines : List String} {script : Script} (h : script.Sound lines)
    {inst : Instruction} (hinst : inst.Sound lines) : (script.push inst).Sound lines where
  name := h.name
  instructions other hmem := by
    rcases Array.mem_push.mp hmem with hold | rfl
    · exact h.instructions other hold
    · exact hinst

/-- A directive before a line moves it to a line that is not before the first. -/
theorem Directive.origin_nonneg {directives : List Directive} {query : Location}
    (h : 0 ≤ query.line) : 0 ≤ (origin directives query).line := by
  unfold origin
  cases hclosest : closest? directives query.line with
  | none => exact h
  | some directive =>
      have hmem := List.argmax_mem hclosest
      have hbefore : (directive.mark : Int) < query.line := by
        simpa using (List.mem_filter.mp hmem).2
      show 0 ≤ query.line - directive.mark + directive.line - 1
      omega

namespace Reader

/-! ### One reader through a trace -/

/-- What a reader has read from some lines. Its relocator, if it has one, keeps what it has read. -/
structure Sound (lines : List String) (reader : Reader) : Prop where
  completed : ∀ script ∈ reader.completed, script.Sound lines
  current : ∀ script, reader.current = some script → script.Sound lines
  count : reader.scriptCount = reader.completed.length
  coherent : ∀ relocator, reader.relocator = some relocator →
    ∃ kept, Relocator.Coherent kept relocator

variable {sources : Sources} {lines : List String} {reader : Reader}

/-- At the start of a trace. -/
theorem sound_start (lines : List String) (relocating : Bool) :
    (start (Relocator.freshIf relocating)).Sound lines where
  completed script hmem := by cases hmem
  current script hopen := by cases hopen
  count := rfl
  coherent relocator h := by
    cases relocating with
    | false => cases h
    | true =>
        cases h
        exact ⟨_, Relocator.coherent_fresh⟩

/-- The open script is as sound as the complete ones that it comes to. -/
theorem Sound.close (h : reader.Sound lines) : reader.close.Sound lines := by
  rw [close_eq]
  constructor
  · intro script hmem
    rcases List.mem_append.mp hmem with hold | hlast
    · exact h.completed script hold
    · exact h.current script (Option.mem_toList.mp hlast)
  · intro script hopen
    cases hopen
  · show reader.scriptCount + reader.current.toList.length
      = (reader.completed ++ reader.current.toList).length
    rw [h.count, List.length_append]
  · exact h.coherent

/-- After closing every script that was opened is complete. -/
theorem scriptCount_close (reader : Reader) : reader.close.scriptCount = reader.opened := by
  rw [close_eq]
  rfl

/-- A line is placed where it is, or where a directive says, and never before the first line. -/
theorem Sound.locate (h : reader.Sound lines) {place location : Location} {later : Reader}
    (hplace : 0 ≤ place.line)
    (hlocate : reader.locate sources place = (.ok location, later)) :
    later.Sound lines ∧ 0 ≤ location.line := by
  cases hrelocator : reader.relocator with
  | none =>
      rw [locate_of_none sources hrelocator] at hlocate
      cases hlocate
      exact ⟨h, hplace⟩
  | some relocator =>
      obtain ⟨kept, hkept⟩ := h.coherent relocator hrelocator
      obtain ⟨hanswer, hlater⟩ := hkept.relocate sources place
      rw [locate_of_some hrelocator] at hlocate
      obtain ⟨hlocation, rfl⟩ := Prod.mk.inj hlocate
      constructor
      · exact { h with coherent := fun other hother => by cases hother; exact ⟨_, hlater⟩ }
      · rw [hanswer] at hlocation
        cases hconsult : Relocator.consult kept sources place.file with
        | error fault =>
            rw [hconsult] at hlocation
            cases hlocation
        | ok directives =>
            rw [hconsult] at hlocation
            cases hlocation
            exact Directive.origin_nonneg hplace

/-- An instruction of a sound script is sound. -/
theorem Sound.instruction (h : reader.Sound lines) {script : Script}
    (hscript : script.Sound lines) {columns : InstructionText} (hasm : Trimmed columns.asm)
    {inst : Instruction} {later : Reader}
    (hinst : reader.instruction sources script columns = (.ok inst, later)) :
    later.Sound lines ∧ inst.Sound lines := by
  obtain ⟨line, pc, count, location, -, -, -, hplace, rfl⟩ := instruction_ok_iff.mp hinst
  obtain ⟨hlater, hline⟩ := h.locate (Int.natCast_nonneg line) hplace
  refine ⟨hlater, ?_⟩
  exact
    { script := hscript.name
      pc := Int.natCast_nonneg pc
      line := hline
      count := Int.natCast_nonneg count
      asm := by rw [String.toList_ofList]; exact hasm }

/-- A line that is read leaves what was read sound. -/
theorem Sound.step (h : reader.Sound lines) {line : String} (hmem : line ∈ lines)
    {consumed : Bool} {later : Reader} (hstep : Step sources reader line (.ok consumed) later) :
    later.Sound lines := by
  cases hstep with
  | header path number record =>
      refine { h.close with current := fun script hopen => ?_ }
      cases hopen
      exact Script.sound_opened hmem record
  | passed other idle => exact h
  | ending script record opened => exact h.close
  | furniture script record opened => exact h
  | instruction columns script inst relocator record opened placed =>
      have hasm := Record.trimmed_of_instruction? (Record.instruction?_of_ofText? record)
      obtain ⟨hlater, hinst⟩ := h.instruction (h.current script opened) hasm placed
      refine { hlater with current := fun other hopen => ?_ }
      cases hopen
      exact (h.current script opened).push hinst

/-- So do lines that are read in turn. -/
theorem Sound.processLines {read : List String} {results : List LineResult} {later : Reader}
    (h : reader.Sound lines) (hread : read ⊆ lines)
    (hlines : reader.processLines sources read = (.ok results, later)) : later.Sound lines := by
  induction read generalizing reader results with
  | nil =>
      rw [processLines_nil] at hlines
      cases hlines
      exact h
  | cons line rest ih =>
      obtain ⟨consumed, mid, others, hline, hrest, -⟩ := processLines_cons_ok hlines
      have hstep := reader.step_processLine sources line
      rw [hline] at hstep
      obtain ⟨hmem, hsubset⟩ := List.cons_subset.mp hread
      exact ih (h.step hmem hstep) hsubset hrest

end Reader

/-! ### What is kept of them -/

namespace SourceFile

variable {file : SourceFile}

/-- Where no line is empty, exactly the lines that are there have a verdict. -/
theorem verdict_eq_none_iff
    (h : ∀ number line, file.lines.get? number = some line → line.toList ≠ []) {number : Int} :
    file.verdict number = none ↔ number ∉ file.lines.keys := by
  rw [← Table.get?_eq_none_iff, verdict]
  cases hline : file.lines.get? number with
  | none => simp
  | some line =>
      have hsome := line.isSome_verdict
      rw [List.isEmpty_eq_false_iff.mpr (h number line hline)] at hsome
      obtain ⟨verdict, hverdict⟩ := Option.isSome_iff_exists.mp hsome
      simp [hverdict]

/-- Where no line is empty, the tally counts every line. -/
theorem lines_tally_of_ne_nil
    (h : ∀ number line, file.lines.get? number = some line → line.toList ≠ []) :
    file.tally.lines = file.lines.size := by
  have hall : file.executableLines = file.lines.values.length := by
    refine List.countP_eq_length.mpr fun line hmem => ?_
    obtain ⟨number, hline⟩ := Table.mem_values_iff.mp hmem
    rw [List.isEmpty_eq_false_iff.mpr (h number line hline)]
    rfl
  rw [tally_eq, Tally.lines_ofVerdicts, length_verdicts, hall, Table.values, List.length_map]
  rfl

end SourceFile

namespace Coverage

variable {scripts : List Script} {name : String} {file : SourceFile}

/-- A file has a line, that of its first instruction. -/
theorem keys_ne_nil_ofScripts (hfile : (ofScripts scripts).file? name = some file) :
    file.lines.keys ≠ [] := by
  have hmem := Table.mem_keys_of_get? hfile
  rw [files_ofScripts, Table.keys_gather, List.mem_eraseDups] at hmem
  obtain ⟨inst, hinst, hname⟩ := List.mem_map.mp hmem
  have hin : inst ∈ instructionsIn scripts name :=
    List.mem_filter.mpr ⟨hinst, decide_eq_true hname⟩
  obtain rfl := eq_of_file?_ofScripts hfile
  refine List.ne_nil_of_mem (a := inst.location.line) ?_
  rw [Table.keys_gather, List.mem_eraseDups]
  exact List.mem_map_of_mem hin

/-- A line has an instruction, its first one or what replaced it. -/
theorem toList_ne_nil_ofScripts (hfile : (ofScripts scripts).file? name = some file)
    {number : Int} {line : Line} (hline : file.lines.get? number = some line) :
    line.toList ≠ [] := by
  have hmem := Table.mem_keys_of_get? hline
  obtain rfl := eq_of_line_ofScripts hfile hline
  obtain rfl := eq_of_file?_ofScripts hfile
  rw [Table.keys_gather, List.mem_eraseDups] at hmem
  obtain ⟨inst, hin, rfl⟩ := List.mem_map.mp hmem
  obtain ⟨hinst, hname⟩ := List.mem_filter.mp hin
  have hon : inst ∈ instructionsOn scripts ⟨name, inst.location.line⟩ := by
    refine List.mem_filter.mpr ⟨hinst, decide_eq_true ?_⟩
    rw [← of_decide_eq_true hname]
  -- There is an instruction at the site of this one.
  have hsite : inst.site ∈ (Table.gather Instruction.site (fun inst _ => inst)
      (instructionsOn scripts ⟨name, inst.location.line⟩)).keys := by
    rw [Table.keys_gather, List.mem_eraseDups]
    exact List.mem_map_of_mem hon
  obtain ⟨last, hlast⟩ := Table.exists_get?_of_mem hsite
  exact List.ne_nil_of_mem (Table.mem_values_iff.mpr ⟨_, hlast⟩)

/-- An instruction is kept in the file, on the line and at the site that it names. -/
theorem kept_ofScripts (hfile : (ofScripts scripts).file? name = some file)
    {number : Int} {line : Line} (hline : file.lines.get? number = some line)
    {site : Site} {inst : Instruction} (hinst : line.insts.get? site = some inst) :
    inst ∈ instructionsOf scripts ∧ inst.location = ⟨name, number⟩ ∧ inst.site = site := by
  obtain rfl := eq_of_line_ofScripts hfile hline
  rw [(insts_gather _).2] at hinst
  have hlast := List.mem_filter.mp (List.mem_of_getLast? hinst)
  have hon := List.mem_filter.mp hlast.1
  exact ⟨hon.1, of_decide_eq_true hon.2, of_decide_eq_true hlast.2⟩

end Coverage

/-- **The coverage of a trace is well formed.** Whatever the chunks of the trace, with relocation or
without:

* as many scripts were added as the trace has headers, and there is one at least;
* a file has a line, and a line has an instruction, so that exactly the lines that are there have a
  verdict, and the tally of a file counts every one of them;
* an instruction is kept in the file, on the line and at the site that it names itself;
* its script was opened by a header of the trace, its numbers are not negative, and its disassembly
  holds no line feed and no blanks around it. -/
theorem ingest_wellFormed (sources : Sources) (relocating : Bool) (chunks : List String)
    {coverage : Coverage}
    (h : (ingest sources (Relocator.freshIf relocating) chunks).outcome = .ok (some coverage)) :
    coverage.scriptCount = (linesOf (String.join chunks)).countP Record.isHeader ∧
    1 ≤ coverage.scriptCount ∧
    ∀ name file, coverage.file? name = some file →
      file.lines.keys ≠ [] ∧
      file.tally.lines = file.lines.size ∧
      (∀ number, file.verdict number = none ↔ number ∉ file.lines.keys) ∧
      ∀ number line, file.lines.get? number = some line →
        line.toList ≠ [] ∧
        ∀ site inst, line.insts.get? site = some inst →
          inst.location = ⟨name, number⟩ ∧ inst.site = site ∧
          inst.Sound (linesOf (String.join chunks)) := by
  obtain ⟨results, reader, hread, -, hfound⟩ :=
    (isBatch_join sources (Relocator.freshIf relocating) chunks).exists_of_ok h
  have hsound := ((Reader.sound_start _ relocating).processLines (List.Subset.refl _) hread).close
  have hopened := Reader.opened_of_processLines hread
  split at hfound
  · rename_i hany
    obtain rfl := Option.some.inj hfound
    have hcount : (Coverage.ofScripts reader.close.completed).scriptCount
        = (linesOf (String.join chunks)).countP Record.isHeader := by
      rw [Coverage.scriptCount_ofScripts, ← hsound.count, Reader.scriptCount_close, hopened,
        Reader.opened_start, Nat.zero_add]
    refine ⟨hcount, ?_, fun name file hfile => ?_⟩
    · rw [hcount]
      exact List.countP_pos_iff.mpr (by simpa using hany)
    have hlines : ∀ number line, file.lines.get? number = some line → line.toList ≠ [] :=
      fun number line => Coverage.toList_ne_nil_ofScripts hfile
    refine ⟨Coverage.keys_ne_nil_ofScripts hfile, SourceFile.lines_tally_of_ne_nil hlines,
      fun number => SourceFile.verdict_eq_none_iff hlines, fun number line hline => ?_⟩
    refine ⟨hlines number line hline, fun site inst hinst => ?_⟩
    obtain ⟨hmem, hlocation, hsite⟩ := Coverage.kept_ofScripts hfile hline hinst
    refine ⟨hlocation, hsite, ?_⟩
    -- The instruction was read in one of the scripts.
    obtain ⟨script, hscript, hinst⟩ := List.mem_flatMap.mp hmem
    exact (hsound.completed script hscript).instructions inst (Array.mem_toList_iff.mp hinst)
  · cases hfound

/-- A generated file, the second line of which comes from line zero of another. -/
theorem ingest_wellFormed_generated :
    ∃ coverage,
      (ingest (fun _ => .ok "//@line 0 \"a.js\"\n") (some .fresh)
        ["hello\n--- SCRIPT g.js:1 ---\n000", "00:  2  [1] op "]).outcome
          = .ok (some coverage) ∧
      coverage.scriptCount = 1 ∧
      ∀ name file, coverage.file? name = some file →
        file.tally.lines = file.lines.size ∧
        ∀ number line, file.lines.get? number = some line →
          ∀ site inst, line.insts.get? site = some inst →
            inst.location = ⟨name, number⟩ ∧ 0 ≤ inst.location.line := by
  have hread : ((Reader.start (some .fresh)).processLines (fun _ => .ok "//@line 0 \"a.js\"\n")
      (linesOf "hello\n--- SCRIPT g.js:1 ---\n00000:  2  [1] op ")).1
      = .ok [⟨"hello", false⟩, ⟨"--- SCRIPT g.js:1 ---", true⟩, ⟨"00000:  2  [1] op ", true⟩] := by
    rfl
  have htrace := (isBatch_join (fun _ => .ok "//@line 0 \"a.js\"\n") (some .fresh)
    ["hello\n--- SCRIPT g.js:1 ---\n000", "00:  2  [1] op "]).complete _ _
      (Prod.ext hread rfl)
  have houtcome := congrArg Ingested.outcome htrace
  obtain ⟨hcount, -, hfiles⟩ := ingest_wellFormed _ true _ houtcome
  refine ⟨_, houtcome, hcount, fun name file hfile => ?_⟩
  obtain ⟨-, hlines, -, hkept⟩ := hfiles name file hfile
  refine ⟨hlines, fun number line hline site inst hinst => ?_⟩
  obtain ⟨-, hinsts⟩ := hkept number line hline
  obtain ⟨hlocation, -, hsound⟩ := hinsts site inst hinst
  exact ⟨hlocation, hsound.line⟩

end LineCoverage
