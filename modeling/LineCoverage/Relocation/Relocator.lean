import LineCoverage.Relocation.Directive
import LineCoverage.Source
import LineCoverage.Table

/-!
# `LineCoverage.Relocation.Relocator`: relocation over many files

A trace asks for the origin of one line after another, mostly in the same file
and often for the same line twice. A `Relocator` reads each file once, at the
first question about it, and keeps its directives for as long as it lives, even
if the file changes meanwhile. Beside the directives it keeps the lines that they
stand on, for bisection, and it keeps the last answer.

A file that cannot be read, or whose directives cannot, leaves the relocator as
it was, so a later question reads the file anew.
-/

set_option autoImplicit false

namespace LineCoverage

/-- What is kept of the files read so far, and the last question with its answer. -/
structure Relocator where
  /-- The directives of each file. -/
  tables : Table String (Array Directive)
  /-- The lines that the directives of each file stand on. -/
  marks : Table String (Array Nat)
  last : Option (Location × Location)

namespace Relocator

/-- A relocator that has read nothing. -/
def fresh : Relocator := ⟨∅, ∅, none⟩

instance : Inhabited Relocator := ⟨fresh⟩

/-- A relocator that has read nothing, if one is wanted. -/
def freshIf (wanted : Bool) : Option Relocator := if wanted then some fresh else none

/-- The directives of a file as they can be read now. -/
def load (sources : Sources) (path : String) : Except Fault (Array Directive) :=
  match sources path with
  | .error fault => .error fault
  | .ok text => (Directive.scan text).map List.toArray

/-- The directives of a file: those kept, or else those that can be read now, which are kept. -/
def directives (sources : Sources) (relocator : Relocator) (path : String) :
    Except Fault (Array Directive) × Relocator :=
  match relocator.tables.get? path with
  | some table => (.ok table, relocator)
  | none =>
    match load sources path with
    -- Nothing is kept of a failure.
    | .error fault => (.error fault, relocator)
    | .ok table =>
      (.ok table,
        { relocator with
          tables := relocator.tables.set path table
          marks := relocator.marks.set path (table.map (·.mark)) })

/-- The last answer, if the question is the same again. -/
def remembered? (relocator : Relocator) (query : Location) : Option Location :=
  match relocator.last with
  | none => none
  | some (question, answer) => if query = question then some answer else none

/-- Where a line of a file with the directives `table` comes from; no answer if their lines are
not kept. -/
def answer? (relocator : Relocator) (table : Array Directive) (query : Location) :
    Option Location :=
  match relocator.marks.get? query.file with
  | none => none
  | some marks => Directive.relocate? table marks query

/-- Where a line comes from. -/
def relocate (sources : Sources) (relocator : Relocator) (query : Location) :
    Except Fault Location × Relocator :=
  match relocator.remembered? query with
  | some answer => (.ok answer, relocator)
  | none =>
    match relocator.directives sources query.file with
    | (.error fault, relocator) => (.error fault, relocator)
    | (.ok table, relocator) =>
      -- The lines are kept with the directives, so there is an answer.
      let answer := (relocator.answer? table query).getD query
      (.ok answer, { relocator with last := some (query, answer) })

end Relocator

end LineCoverage
