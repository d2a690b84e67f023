import LineCoverage.Coverage.Model

/-!
# `LineCoverage.Coverage.Target`: the files to report on

A user names the files to report on, or names none and gets them all. A name is
looked up as a whole first, then by its base name, and of several files with
that base name the first one that the trace mentions is meant. A name that finds
nothing is reported and left out; if every name does, the report is empty, and
does not fall back on all files.

Code that comes from no file has no source to report on, so it is never meant by
naming nothing.
-/

set_option autoImplicit false

namespace LineCoverage

/-- A file to report on, under the name that the report shows. -/
structure Target where
  name : String
  file : SourceFile

namespace Coverage

/-- The file that a name given by a user means, and the coverage, which keeps its index if that was
needed. -/
def resolve (coverage : Coverage) (wanted : String) : Option SourceFile × Coverage :=
  match coverage.file? wanted with
  | some file => (some file, coverage)
  | none =>
    let (index, coverage) := coverage.byBaseName
    ((index.get? (baseName wanted)).bind coverage.file?, coverage)

/-- The names of all files but those of code that comes from no file, in code point order. -/
def defaultTargets (coverage : Coverage) : List String :=
  (coverage.files.keys.filter fun name => baseName name ≠ noFileName).mergeSort
    fun left right => decide (left ≤ right)

/-- The target that a name given by a user means; a name that means none is given back. -/
def target (coverage : Coverage) (wanted : String) : Except String Target × Coverage :=
  match coverage.resolve wanted with
  | (none, coverage) => (.error wanted, coverage)
  | (some file, coverage) => (.ok ⟨file.name, file⟩, coverage)

/-- The targets that some names mean, one after another. -/
def targets (coverage : Coverage) : List String → List (Except String Target) × Coverage
  | [] => ([], coverage)
  | wanted :: rest =>
    let (found, coverage) := coverage.target wanted
    let (others, coverage) := coverage.targets rest
    (found :: others, coverage)

/-- The targets that some names mean, and the names that mean none, each in order. -/
def namedTargets (coverage : Coverage) (wanted : List String) :
    (List Target × List String) × Coverage :=
  let (found, coverage) := coverage.targets wanted
  -- Each name is on one side and on one side only.
  ((found.filterMap Except.toOption,
    found.filterMap fun
      | .error name => some name
      | .ok _ => none), coverage)

/-- The targets for what a user asked for, and the names that mean none. -/
def resolveTargets (coverage : Coverage) (wanted : List String) :
    (List Target × List String) × Coverage :=
  match wanted with
  | [] =>
    ((coverage.defaultTargets.filterMap fun name => (coverage.file? name).map (⟨name, ·⟩), []),
      coverage)
  | wanted => coverage.namedTargets wanted

end Coverage

/-- The warning about a name that means no file. -/
def unknownTargetWarning (name : String) : String :=
  "covmonkey warning: unknown target file: " ++ name ++ "\n"

end LineCoverage
