import LineCoverage.Proofs.Coverage.Chunking
import LineCoverage.Proofs.Relocation.Transparency
import Mathlib.Data.List.Forall2

/-!
# `LineCoverage.Proofs.Coverage.Placement`: relocation can wait

A reader that relocates asks its relocator about one instruction after another
in the order of the trace, so that files come and go in the questions as they do
in the scripts. `Script.placed` moves the instructions of one complete script,
by what its file has to say and by nothing else.

`ingest_relocating` proves that the two agree: the coverage of a trace read with
relocation is that of the scripts read without it and moved afterwards. Where no
file of a script has a directive, there is nothing to move.

The proof runs the two readers side by side. `Reader.Beside` says that the
scripts of the one are those of the other moved, and that the relocator of the
other keeps nothing that is not so (`Relocator.Faithful`).
-/

set_option autoImplicit false

namespace LineCoverage

open Text

variable {sources : Sources}

/-! ### Scripts moved afterwards -/

/-- An instruction of a script of the file at `path`, moved to where its line comes from. -/
def Instruction.placed (sources : Sources) (path : String) (inst : Instruction) :
    Except Fault Instruction :=
  (originFrom sources ⟨path, inst.location.line⟩).map fun location =>
    { inst with location := location }

/-- A script with its instructions moved to where their lines come from. -/
def Script.placed (sources : Sources) (script : Script) : Except Fault Script :=
  (script.instructions.toList.mapM (Instruction.placed sources script.path)).map fun insts =>
    { script with instructions := insts.toArray }

/-- All scripts of a text, read without relocation. -/
def scriptsOf (sources : Sources) (text : String) : Except Fault (List Script) :=
  let (results, reader) := (Reader.start none).processLines sources (linesOf text)
  results.map fun _ => reader.close.completed

/-- Where a function that can fail leaves each value as it is, it leaves a list as it is. -/
private theorem eq_of_mapM_eq_ok {α : Type} {f : α → Except Fault α} {values others : List α}
    (h : values.mapM f = .ok others)
    (hstays : ∀ value ∈ values, ∀ other, f value = .ok other → other = value) :
    others = values := by
  induction values generalizing others with
  | nil =>
      cases h
      rfl
  | cons value rest ih =>
      rw [List.mapM_cons] at h
      cases hvalue : f value with
      | error fault =>
          rw [hvalue] at h
          cases h
      | ok other =>
          cases hrest : rest.mapM f with
          | error fault =>
              rw [hvalue, hrest] at h
              cases h
          | ok more =>
              rw [hvalue, hrest] at h
              cases h
              rw [hstays value List.mem_cons_self other hvalue,
                ih hrest fun later hmem => hstays later (List.mem_cons_of_mem _ hmem)]

/-- A script can be moved when each of its instructions can. -/
theorem Script.placed_eq_ok_iff {script moved : Script} :
    script.placed sources = .ok moved ↔
      ∃ insts, script.instructions.toList.mapM (Instruction.placed sources script.path)
          = .ok insts ∧ moved = { script with instructions := insts.toArray } := by
  unfold Script.placed
  cases script.instructions.toList.mapM (Instruction.placed sources script.path) with
  | error fault => simp [Except.map]
  | ok insts => simp [Except.map, eq_comm]

/-- A script without relocation, whose instructions are on lines of its own file, and the same
script moved. -/
structure Script.MovesTo (sources : Sources) (script moved : Script) : Prop where
  home : ∀ inst ∈ script.instructions, inst.location.file = script.path
  placed : script.placed sources = .ok moved

/-- A script that was just opened has nothing to move. -/
theorem Script.movesTo_opened (path number : List Char) :
    (Script.opened path number).MovesTo sources (Script.opened path number) where
  home inst hmem := by simp [Script.opened] at hmem
  placed := rfl

/-- A script keeps its name and its file when it moves. -/
theorem Script.MovesTo.named {script moved : Script} (h : script.MovesTo sources moved) :
    moved.name = script.name ∧ moved.path = script.path := by
  obtain ⟨insts, -, rfl⟩ := placed_eq_ok_iff.mp h.placed
  exact ⟨rfl, rfl⟩

/-- One more instruction on a line of the file of the script. -/
theorem Script.MovesTo.push {script moved : Script} (h : script.MovesTo sources moved)
    {inst : Instruction} {location : Location} (hhome : inst.location.file = script.path)
    (horigin : originFrom sources ⟨script.path, inst.location.line⟩ = .ok location) :
    (script.push inst).MovesTo sources (moved.push { inst with location := location }) where
  home other hmem := by
    rcases Array.mem_push.mp hmem with hold | rfl
    · exact h.home other hold
    · exact hhome
  placed := by
    obtain ⟨insts, hinsts, rfl⟩ := placed_eq_ok_iff.mp h.placed
    have hinst : inst.placed sources script.path = .ok { inst with location := location } := by
      rw [Instruction.placed, horigin]
      rfl
    refine placed_eq_ok_iff.mpr ⟨insts ++ [{ inst with location := location }], ?_, ?_⟩
    · show (script.instructions.push inst).toList.mapM
        (Instruction.placed sources script.path) = _
      rw [Array.toList_push, List.mapM_append, hinsts, List.mapM_cons, hinst]
      rfl
    · simp [Script.push]

/-- A script whose file has no directive stays as it is. -/
theorem Script.MovesTo.eq_of_no_directive {script moved : Script}
    (h : script.MovesTo sources moved)
    (hnone : ∀ directives, scanFrom sources script.path = .ok directives → directives = []) :
    moved = script := by
  -- Every instruction that can be placed is placed where it is.
  have hstays : ∀ inst ∈ script.instructions.toList, ∀ later,
      inst.placed sources script.path = .ok later → later = inst := by
    intro inst hmem later hlater
    unfold Instruction.placed originFrom at hlater
    cases hscan : scanFrom sources script.path with
    | error fault => simp [hscan, Except.map] at hlater
    | ok directives =>
        rw [hscan, hnone directives hscan] at hlater
        cases hlater
        rw [← h.home inst (Array.mem_toList_iff.mp hmem)]
        rfl
  obtain ⟨insts, hinsts, rfl⟩ := placed_eq_ok_iff.mp h.placed
  rw [eq_of_mapM_eq_ok hinsts hstays]

/-! ### Two readers side by side -/

namespace Reader

/-- A reader without relocation, and one with relocation that has read the same lines. -/
structure Beside (sources : Sources) (plain relocating : Reader) : Prop where
  completed : plain.completed.Forall₂ (Script.MovesTo sources) relocating.completed
  current : plain.current.Rel (Script.MovesTo sources) relocating.current
  plain : plain.relocator = none
  faithful : ∃ relocator, relocating.relocator = some relocator ∧
    Relocator.Faithful sources relocator

variable {plain relocating : Reader}

/-- At the start of a trace. -/
theorem beside_start (sources : Sources) : Beside sources (start none) (start (some .fresh)) where
  completed := .nil
  current := .none
  plain := rfl
  faithful := ⟨.fresh, rfl, Relocator.faithful_fresh sources⟩

/-- Both readers close the same script. -/
theorem Beside.close (h : Beside sources plain relocating) :
    Beside sources plain.close relocating.close := by
  obtain ⟨fragment, current, completed, scriptCount, relocator⟩ := plain
  obtain ⟨fragment', current', completed', scriptCount', relocator'⟩ := relocating
  obtain ⟨hcompleted, hcurrent, hplain, hfaithful⟩ := h
  cases hcurrent with
  | none => exact ⟨hcompleted, .none, hplain, hfaithful⟩
  | some hmoves =>
      exact ⟨List.rel_append hcompleted (.cons hmoves .nil), .none, hplain, hfaithful⟩

/-- Outside a script for the one reader is outside a script for the other. -/
theorem Beside.idle (h : Beside sources plain relocating) (hidle : relocating.current = none) :
    plain.current = none := by
  have hcurrent := h.current
  rw [hidle] at hcurrent
  generalize plain.current = current at hcurrent ⊢
  cases hcurrent
  rfl

/-- The script that is open for the one reader is the moved script of the other. -/
theorem Beside.opened (h : Beside sources plain relocating) {moved : Script}
    (hopen : relocating.current = some moved) :
    ∃ script, plain.current = some script ∧ script.MovesTo sources moved := by
  have hcurrent := h.current
  rw [hopen] at hcurrent
  generalize plain.current = current at hcurrent ⊢
  cases hcurrent with
  | some hmoves => exact ⟨_, rfl, hmoves⟩

/-- What the reader with relocation reads, the other reads too, on the line where it stands. -/
theorem Beside.instruction (h : Beside sources plain relocating) {script moved : Script}
    (hmoves : script.MovesTo sources moved) {columns : InstructionText} {inst : Instruction}
    {later : Reader}
    (hinst : relocating.instruction sources moved columns = (.ok inst, later)) :
    ∃ home, plain.instruction sources script columns = (.ok home, plain) ∧
      (script.push home).MovesTo sources (moved.push inst) ∧
      ∃ relocator, later = { relocating with relocator := some relocator } ∧
        Relocator.Faithful sources relocator := by
  obtain ⟨line, pc, count, location, hline, hpc, hcount, hplace, rfl⟩ :=
    instruction_ok_iff.mp hinst
  obtain ⟨hname, hpath⟩ := hmoves.named
  obtain ⟨relocator, hrelocator, hfaithful⟩ := h.faithful
  obtain ⟨horigin, hlater⟩ := hfaithful.relocate ⟨moved.path, line⟩
  rw [locate_of_some hrelocator] at hplace
  obtain ⟨hlocation, rfl⟩ := Prod.mk.inj hplace
  rw [hlocation, hpath] at horigin
  have hhome := locate_of_none sources h.plain ⟨script.path, line⟩
  refine ⟨_, instruction_ok_iff.mpr ⟨line, pc, count, _, hline, hpc, hcount, hhome, rfl⟩,
    ?_, _, rfl, hlater⟩
  rw [hname]
  exact hmoves.push rfl horigin.symm

/-- A line that can be read with relocation can be read without, and the readers stay side by
side. -/
theorem Beside.processLine (h : Beside sources plain relocating) {line : String}
    {consumed : Bool} {later : Reader}
    (hline : relocating.processLine sources line = (.ok consumed, later)) :
    ∃ mid, plain.processLine sources line = (.ok consumed, mid) ∧ Beside sources mid later := by
  have hstep := relocating.step_processLine sources line
  rw [hline] at hstep
  cases hstep with
  | header path number record =>
      exact ⟨_, processLine_of_header plain record,
        { h.close with current := .some (Script.movesTo_opened path number) }⟩
  | passed other idle =>
      refine ⟨plain, ?_, h⟩
      rcases idle with hidle | hrecord
      · exact processLine_of_idle plain line other (h.idle hidle)
      · exact processLine_of_none plain hrecord
  | ending moved record hopen =>
      obtain ⟨script, hscript, -⟩ := h.opened hopen
      exact ⟨_, processLine_of_ending record hscript, h.close⟩
  | furniture moved record hopen =>
      obtain ⟨script, hscript, -⟩ := h.opened hopen
      exact ⟨_, processLine_of_furniture record hscript, h⟩
  | instruction columns moved inst relocator record hopen placed =>
      obtain ⟨script, hscript, hmoves⟩ := h.opened hopen
      obtain ⟨home, hhome, hpush, after, hafter, hfaithful⟩ := h.instruction hmoves placed
      refine ⟨_, processLine_of_instruction_ok record hscript hhome, ?_⟩
      exact
        { completed := h.completed
          current := .some hpush
          plain := h.plain
          faithful := ⟨after, congrArg Reader.relocator hafter, hfaithful⟩ }

/-- Lines that can be read with relocation can be read without, alike. -/
theorem Beside.processLines (h : Beside sources plain relocating) {lines : List String}
    {results : List LineResult} {later : Reader}
    (hlines : relocating.processLines sources lines = (.ok results, later)) :
    ∃ mid, plain.processLines sources lines = (.ok results, mid) ∧
      Beside sources mid later := by
  induction lines generalizing plain relocating results with
  | nil =>
      rw [processLines_nil] at hlines
      cases hlines
      exact ⟨plain, processLines_nil sources plain, h⟩
  | cons line rest ih =>
      obtain ⟨consumed, stop, others, hline, hrest, rfl⟩ := processLines_cons_ok hlines
      obtain ⟨mid, hmid, hbeside⟩ := h.processLine hline
      obtain ⟨last, hlast, hend⟩ := ih hbeside hrest
      refine ⟨last, ?_, hend⟩
      rw [processLines_cons, hmid]
      simp only [hlast, Except.map]

end Reader

/-! ### Two readings of a trace -/

/-- Scripts that move one by one. -/
private theorem mapM_placed_of_movesTo {scripts moved : List Script}
    (h : scripts.Forall₂ (Script.MovesTo sources) moved) :
    scripts.mapM (Script.placed sources) = .ok moved := by
  induction h with
  | nil => rfl
  | cons hscript _ ih =>
      rw [List.mapM_cons, hscript.placed, ih]
      rfl

/-- Scripts of files without directives stay as they are. -/
private theorem eq_of_movesTo_of_no_directive {scripts moved : List Script}
    (h : scripts.Forall₂ (Script.MovesTo sources) moved)
    (hnone : ∀ script ∈ scripts, ∀ directives,
      scanFrom sources script.path = .ok directives → directives = []) :
    moved = scripts := by
  induction h with
  | nil => rfl
  | cons hscript _ ih =>
      rw [hscript.eq_of_no_directive (hnone _ List.mem_cons_self),
        ih fun script hmem => hnone script (List.mem_cons_of_mem _ hmem)]

/-- **Relocation can wait.** A trace that can be read with relocation can be read without, and
the same lines are passed on. There is a coverage with relocation exactly if there is one
without, and it is that of the scripts read without relocation and moved afterwards. Where no
file of a script has a directive, relocation changes nothing. -/
theorem ingest_relocating (sources : Sources) (chunks : List String) {passed : List String}
    {found : Option Coverage} (h : ingest sources (some .fresh) chunks = ⟨passed, .ok found⟩) :
    ∃ scripts moved,
      scriptsOf sources (String.join chunks) = .ok scripts ∧
      scripts.mapM (Script.placed sources) = .ok moved ∧
      (∀ coverage, found = some coverage → coverage = Coverage.ofScripts moved) ∧
      ingest sources none chunks
        = ⟨passed, .ok (found.map fun _ => Coverage.ofScripts scripts)⟩ ∧
      ((∀ script ∈ scripts, ∀ directives,
          scanFrom sources script.path = .ok directives → directives = []) →
        ingest sources none chunks = ingest sources (some .fresh) chunks) := by
  have hok : (ingest sources (some .fresh) chunks).outcome = .ok found := by rw [h]
  obtain ⟨results, relocating, hread, hpassed, hfound⟩ :=
    (isBatch_join sources (some .fresh) chunks).exists_of_ok hok
  obtain ⟨plain, hplain, hbeside⟩ := (Reader.beside_start sources).processLines hread
  have hmoves := hbeside.close.completed
  have hscripts : scriptsOf sources (String.join chunks) = .ok plain.close.completed := by
    unfold scriptsOf
    rw [hplain]
    rfl
  -- Whether there is a coverage depends on the headers alone, and they are the same.
  have hfalse : ingest sources none chunks
      = ⟨passed, .ok (found.map fun _ => Coverage.ofScripts plain.close.completed)⟩ := by
    rw [(isBatch_join sources none chunks).complete results plain hplain, hfound, ← hpassed, h]
    cases (linesOf (String.join chunks)).any Record.isHeader <;> rfl
  have hcoverage : ∀ coverage, found = some coverage →
      coverage = Coverage.ofScripts relocating.close.completed := by
    intro coverage hsome
    rw [hsome] at hfound
    split at hfound
    · exact Option.some.inj hfound
    · cases hfound
  refine ⟨_, _, hscripts, mapM_placed_of_movesTo hmoves, hcoverage, hfalse, ?_⟩
  intro hnone
  have hsame := eq_of_movesTo_of_no_directive hmoves hnone
  rw [hfalse, h]
  cases found with
  | none => rfl
  | some coverage => rw [hcoverage coverage rfl, hsame]; rfl

/-- The second line of a generated file, in a trace that is cut in the record of that line. -/
theorem ingest_relocating_generated :
    ∃ found scripts,
      ingest (fun _ => .ok "//@line 10 \"a.js\"\n") (some .fresh)
        ["hello\n--- SCRIPT g.js:1 ---\n000", "00:  2  [1] op"]
          = ⟨["hello"], .ok (some found)⟩ ∧
      ingest (fun _ => .ok "//@line 10 \"a.js\"\n") none
        ["hello\n--- SCRIPT g.js:1 ---\n000", "00:  2  [1] op"]
          = ⟨["hello"], .ok (some (Coverage.ofScripts scripts))⟩ := by
  have hread : ((Reader.start (some .fresh)).processLines (fun _ => .ok "//@line 10 \"a.js\"\n")
      (linesOf "hello\n--- SCRIPT g.js:1 ---\n00000:  2  [1] op")).1
      = .ok [⟨"hello", false⟩, ⟨"--- SCRIPT g.js:1 ---", true⟩, ⟨"00000:  2  [1] op", true⟩] := by
    rfl
  have htrace := (isBatch_join (fun _ => .ok "//@line 10 \"a.js\"\n") (some .fresh)
    ["hello\n--- SCRIPT g.js:1 ---\n000", "00:  2  [1] op"]).complete _ _
      (Prod.ext hread rfl)
  obtain ⟨scripts, moved, -, -, -, hfalse, -⟩ := ingest_relocating _ _ htrace
  exact ⟨_, scripts, htrace, hfalse⟩

end LineCoverage
