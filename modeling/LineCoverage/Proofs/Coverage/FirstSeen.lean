import LineCoverage.Coverage.Model
import LineCoverage.Proofs.Table

/-!
# `LineCoverage.Proofs.Coverage.FirstSeen`: what the coverage of some scripts holds

A coverage is filled one instruction after another, through three tables that
lie in each other: files, the lines of a file, and the instructions of a line.
`ofScripts_firstSeen` says what is in them in the end, by the instructions of all
scripts in order and without any table: names, numbers and sites stand where
each was first seen, and of the records of one site on one line the last counts.

Each of the tables is a `Table.gather` of the instructions that got there. For
the files that is `files_ofScripts`. The lines of one file are gathered from the
instructions of that file, and so on (`Table.eq_of_get?_gather`).
-/

set_option autoImplicit false

namespace LineCoverage

/-- The instructions of some scripts, one script after another. -/
def instructionsOf (scripts : List Script) : List Instruction :=
  scripts.flatMap (·.instructions.toList)

/-- The instructions of some scripts on the lines of a file. -/
def instructionsIn (scripts : List Script) (name : String) : List Instruction :=
  (instructionsOf scripts).filter (·.location.file = name)

/-- The instructions of some scripts on one line of a file. -/
def instructionsOn (scripts : List Script) (location : Location) : List Instruction :=
  (instructionsOf scripts).filter (·.location = location)

/-- A line after one more instruction; without a line, a new one. -/
def Line.enter (inst : Instruction) (line : Option Line) : Line := (line.getD .empty).add inst

/-- A file after one more instruction; without a file, a new one under the name that the
instruction gives. -/
def SourceFile.enter (inst : Instruction) (file : Option SourceFile) : SourceFile :=
  (file.getD (.empty inst.location.file)).alterLine inst.location.line (·.add inst)

namespace Coverage

/-! ### The three tables -/

/-- A change of a line is one of its file, new or not. -/
theorem files_alterLine (coverage : Coverage) (name : String) (number : Int)
    (change : Line → Line) :
    (coverage.alterLine name number change).files
      = coverage.files.alter name fun file =>
          (file.getD (.empty name)).alterLine number change := by
  unfold alterLine openFile
  split
  · rfl
  · rename_i hnew
    have hnone : coverage.files.get? name = none := by
      simpa [Table.contains] using hnew
    -- The new file is opened, and then changed like any other.
    show ((coverage.files.set name (.empty name)).alter name _) = _
    rw [Table.set, Table.alter_alter]
    refine Table.alter_congr coverage.files ?_
    rw [hnone]
    rfl

/-- A change of a line adds no script. -/
theorem scriptCount_alterLine (coverage : Coverage) (name : String) (number : Int)
    (change : Line → Line) :
    (coverage.alterLine name number change).scriptCount = coverage.scriptCount := by
  show (coverage.openFile name).scriptCount = _
  unfold openFile
  split <;> rfl

/-- Instructions add no script. -/
theorem scriptCount_foldl_addInstruction (coverage : Coverage) (insts : List Instruction) :
    (insts.foldl addInstruction coverage).scriptCount = coverage.scriptCount := by
  induction insts generalizing coverage with
  | nil => rfl
  | cons inst rest ih =>
      rw [List.foldl_cons, ih]
      exact scriptCount_alterLine coverage _ _ _

/-- As many scripts were added as there are. -/
theorem scriptCount_ofScripts (scripts : List Script) :
    (ofScripts scripts).scriptCount = scripts.length := by
  induction scripts using List.reverseRecOn with
  | nil => rfl
  | append_singleton scripts script ih =>
      have hlast : ofScripts (scripts ++ [script]) = (ofScripts scripts).addScript script := by
        simp [ofScripts, List.foldl_append]
      rw [hlast, addScript, scriptCount_foldl_addInstruction, ih, List.length_append]
      rfl

/-- The files are gathered from all instructions. -/
theorem files_ofScripts (scripts : List Script) :
    (ofScripts scripts).files
      = Table.gather (·.location.file) SourceFile.enter (instructionsOf scripts) := by
  have hinsts : ∀ (coverage : Coverage) (insts : List Instruction),
      (insts.foldl addInstruction coverage).files
        = insts.foldl (fun files inst => files.alter inst.location.file (SourceFile.enter inst))
            coverage.files := by
    intro coverage insts
    refine (List.foldl_hom Coverage.files ?_).symm
    intro coverage inst
    exact (files_alterLine coverage inst.location.file inst.location.line _).symm
  rw [Table.gather, instructionsOf, List.foldl_flatMap]
  show (scripts.foldl addScript empty).files = scripts.foldl _ empty.files
  refine (List.foldl_hom Coverage.files ?_).symm
  intro coverage script
  exact (hinsts { coverage with scriptCount := coverage.scriptCount + 1 }
    script.instructions.toList).symm

/-- A file holds the lines gathered from its own instructions. -/
theorem eq_of_file?_ofScripts {scripts : List Script} {name : String} {file : SourceFile}
    (h : (ofScripts scripts).file? name = some file) :
    file = ⟨name, Table.gather (·.location.line) Line.enter (instructionsIn scripts name)⟩ := by
  unfold file? at h
  rw [files_ofScripts] at h
  refine Table.eq_of_get?_gather
    (fun insts => ⟨name, Table.gather (·.location.line) Line.enter insts⟩) ?_ ?_ h
  · rintro inst rfl
    rfl
  · rintro earlier inst rfl
    simp only [Table.gather_concat]
    rfl

/-- A line holds its own instructions, the last one of each site. -/
theorem eq_of_get?_lines {insts : List Instruction} {number : Int} {line : Line}
    (h : (Table.gather (·.location.line) Line.enter insts).get? number = some line) :
    line = ⟨Table.gather Instruction.site (fun inst _ => inst)
      (insts.filter (·.location.line = number))⟩ := by
  refine Table.eq_of_get?_gather
    (fun insts => ⟨Table.gather Instruction.site (fun inst _ => inst) insts⟩) ?_ ?_ h
  · intro inst _
    rfl
  · intro earlier inst _
    simp only [Table.gather_concat]
    rfl

/-- What a line of a file holds is gathered from the instructions of all scripts on that line. -/
theorem eq_of_line_ofScripts {scripts : List Script} {name : String} {file : SourceFile}
    (hfile : (ofScripts scripts).file? name = some file) {number : Int} {line : Line}
    (hline : file.lines.get? number = some line) :
    line = ⟨Table.gather Instruction.site (fun inst _ => inst)
      (instructionsOn scripts ⟨name, number⟩)⟩ := by
  obtain rfl := eq_of_file?_ofScripts hfile
  have hon : (instructionsIn scripts name).filter (·.location.line = number)
      = instructionsOn scripts ⟨name, number⟩ := by
    rw [instructionsIn, instructionsOn, List.filter_filter]
    refine List.filter_congr fun inst _ => ?_
    obtain ⟨file, line⟩ := inst.location
    simp [and_comm]
  rw [← hon]
  exact eq_of_get?_lines hline

/-! ### What is in them -/

/-- The instructions of a line, gathered by their sites: the sites as they were first seen, and
for each the last instruction from there. -/
theorem insts_gather (insts : List Instruction) :
    (Table.gather Instruction.site (fun inst _ => inst) insts).keys
        = (insts.map Instruction.site).eraseDups ∧
      ∀ site, (Table.gather Instruction.site (fun inst _ => inst) insts).get? site
        = (insts.filter (·.site = site)).getLast? := by
  refine ⟨Table.keys_gather insts, fun site => ?_⟩
  rw [Table.get?_gather]
  generalize insts.filter (·.site = site) = own
  induction own using List.reverseRecOn with
  | nil => rfl
  | append_singleton earlier last _ =>
      rw [List.foldl_append, List.getLast?_concat]
      rfl

/-- **First seen, first listed, and the last record counts.** For all scripts in order:

* the files of their coverage are those of their instructions, in order of first occurrence;
* the lines of a file are those of the instructions in that file, in order of first occurrence;
* the instructions of a line are, for each site among the instructions on that line, in order of
  first occurrence there, the last one from that site;
* as many scripts were added as there are. -/
theorem ofScripts_firstSeen (scripts : List Script) :
    (ofScripts scripts).files.keys
        = ((instructionsOf scripts).map (·.location.file)).eraseDups ∧
    (∀ name file, (ofScripts scripts).file? name = some file →
      file.name = name ∧
      file.lines.keys
        = ((instructionsIn scripts name).map (·.location.line)).eraseDups ∧
      ∀ number line, file.lines.get? number = some line →
        line.insts.keys
          = ((instructionsOn scripts ⟨name, number⟩).map Instruction.site).eraseDups ∧
        (∀ site, line.insts.get? site
          = ((instructionsOn scripts ⟨name, number⟩).filter (·.site = site)).getLast?) ∧
        line.toList
          = (((instructionsOn scripts ⟨name, number⟩).map Instruction.site).eraseDups).filterMap
              fun site =>
                ((instructionsOn scripts ⟨name, number⟩).filter (·.site = site)).getLast?) ∧
    (ofScripts scripts).scriptCount = scripts.length := by
  refine ⟨?_, ?_, scriptCount_ofScripts scripts⟩
  · rw [files_ofScripts]
    exact Table.keys_gather _
  · intro name file hfile
    obtain rfl := eq_of_file?_ofScripts hfile
    refine ⟨rfl, Table.keys_gather _, ?_⟩
    intro number line hline
    have hon : (instructionsIn scripts name).filter (·.location.line = number)
        = instructionsOn scripts ⟨name, number⟩ := by
      rw [instructionsIn, instructionsOn, List.filter_filter]
      refine List.filter_congr fun inst _ => ?_
      obtain ⟨file, line⟩ := inst.location
      simp [and_comm]
    obtain rfl := eq_of_get?_lines hline
    rw [hon]
    obtain ⟨hkeys, hget⟩ := insts_gather (instructionsOn scripts ⟨name, number⟩)
    refine ⟨hkeys, hget, ?_⟩
    rw [Line.toList, Table.values_eq, hkeys]
    exact List.filterMap_congr fun site _ => hget site

end Coverage

end LineCoverage
