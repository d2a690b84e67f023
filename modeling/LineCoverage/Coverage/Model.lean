import LineCoverage.Coverage.Tally
import LineCoverage.Table

/-!
# `LineCoverage.Coverage.Model`: instructions by file and line

A `Coverage` gathers the instructions of all scripts by the file and line that
they belong to. Files, lines and instructions stand in the order in which each
was first seen. The engine may print a script more than once; its counts are
final every time, so a later record of the same site on the same line replaces
the earlier one in its place.

A file can be asked for by its whole name, or by its base name, since a user may
know it under another directory than the trace. For base names there is an index
to the first file with each. It is made when it is asked for, kept for the next
time, and dropped when a file is added.
-/

set_option autoImplicit false

namespace LineCoverage

/-- The instructions on one line. -/
structure Line where
  insts : Table Site Instruction

namespace Line

/-- A line without instructions. -/
def empty : Line := ⟨∅⟩

instance : Inhabited Line := ⟨empty⟩

/-- Adds an instruction, or replaces the one from the same site. -/
def add (line : Line) (inst : Instruction) : Line :=
  ⟨line.insts.set inst.site inst⟩

/-- The instructions in the order in which their sites were first seen. -/
def toList (line : Line) : List Instruction := line.insts.values

/-- The verdict on the line. -/
def verdict (line : Line) : Option Verdict := Verdict.ofInstructions line.toList

/-- The execution counts of the instructions. -/
def counts (line : Line) : List Int := line.toList.map (·.count)

end Line

/-- The lines of one file, by their numbers. -/
structure SourceFile where
  name : String
  lines : Table Int Line

namespace SourceFile

/-- A file without lines. -/
def empty (name : String) : SourceFile := ⟨name, ∅⟩

instance : Inhabited SourceFile := ⟨empty ""⟩

/-- Changes the line with a number, which comes into being if it is new. -/
def alterLine (file : SourceFile) (number : Int) (change : Line → Line) : SourceFile :=
  { file with lines := file.lines.alter number fun line => change (line.getD .empty) }

/-- The verdict on a line; none if it is not executable. -/
def verdict (file : SourceFile) (number : Int) : Option Verdict :=
  (file.lines.get? number).bind Line.verdict

/-- The instructions on a line. -/
def insts (file : SourceFile) (number : Int) : List Instruction :=
  ((file.lines.get? number).map Line.toList).getD []

/-- The number of lines with instructions. -/
def executableLines (file : SourceFile) : Nat :=
  file.lines.values.countP fun line => !line.toList.isEmpty

/-- The tally of the verdicts on the lines. -/
def tally (file : SourceFile) : Tally :=
  Tally.ofVerdicts (file.lines.values.filterMap Line.verdict)

/-- The tally of several files; a file that is there twice counts twice. -/
def totalTally (files : List SourceFile) : Tally :=
  files.foldl (fun total file => total + file.tally) .zero

end SourceFile

/-- The base name of a path: what follows its last slash. -/
def baseName (path : String) : String :=
  String.ofList (path.toList.reverse.takeWhile (· ≠ '/')).reverse

/-- The base name under which the engine reports code that comes from no file. -/
def noFileName : String := "(null)"

/-- The instructions of all scripts by file and line. -/
structure Coverage where
  files : Table String SourceFile
  /-- The name of the first file with each base name, if somebody has asked since the last file
  was added. -/
  index : Option (Table String String)
  /-- How many scripts were added. -/
  scriptCount : Nat

namespace Coverage

/-- The coverage of no script. -/
def empty : Coverage := ⟨∅, none, 0⟩

instance : Inhabited Coverage := ⟨empty⟩

/-- The file with a name. -/
def file? (coverage : Coverage) (name : String) : Option SourceFile := coverage.files.get? name

/-- Makes sure that there is a file with a name. A new one goes to the end, and may be missing
in the index. -/
def openFile (coverage : Coverage) (name : String) : Coverage :=
  if coverage.files.contains name then coverage
  else
    { coverage with
      files := coverage.files.set name (.empty name)
      index := none }

/-- Changes a line of a file. Either comes into being if it is new. -/
def alterLine (coverage : Coverage) (name : String) (number : Int) (change : Line → Line) :
    Coverage :=
  -- The file is opened first, since a new one makes the index old.
  let coverage := coverage.openFile name
  { coverage with
    files := coverage.files.alter name fun file =>
      (file.getD (.empty name)).alterLine number change }

/-- Makes sure that there is a line with a number. -/
def openLine (coverage : Coverage) (name : String) (number : Int) : Coverage :=
  coverage.alterLine name number id

/-- Adds an instruction to a line. -/
def add (coverage : Coverage) (name : String) (number : Int) (inst : Instruction) : Coverage :=
  coverage.alterLine name number (·.add inst)

/-- Adds an instruction to the line that it belongs to. -/
def addInstruction (coverage : Coverage) (inst : Instruction) : Coverage :=
  coverage.add inst.location.file inst.location.line inst

/-- Adds the instructions of a script. -/
def addScript (coverage : Coverage) (script : Script) : Coverage :=
  script.instructions.toList.foldl addInstruction
    { coverage with scriptCount := coverage.scriptCount + 1 }

/-- The coverage of some scripts. -/
def ofScripts (scripts : List Script) : Coverage := scripts.foldl addScript .empty

/-- The first of some names with each base name. -/
def indexOf (names : List String) : Table String String :=
  names.foldl (fun index name => index.setNew (baseName name) name) ∅

/-- The name of the first file with each base name, and the coverage, which keeps them. -/
def byBaseName (coverage : Coverage) : Table String String × Coverage :=
  match coverage.index with
  | some index => (index, coverage)
  | none =>
    let index := indexOf coverage.files.keys
    (index, { coverage with index := some index })

end Coverage

end LineCoverage
