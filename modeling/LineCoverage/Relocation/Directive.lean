import LineCoverage.Numeral
import LineCoverage.Text.Scan
import LineCoverage.Trace.Script

/-!
# `LineCoverage.Relocation.Directive`: line directives in generated sources

A generated source tells where its lines come from by comments:

    //@line 10 "lib/a.js"

The line after such a comment is line 10 of `lib/a.js`, the next one line 11,
and so on up to the next directive. The comment may stand anywhere on a line;
the leftmost one on a line counts.

`scan` collects the directives of a text, and `relocate?` applies them. A
directive never affects its own line, so the one that counts for a line is the
last one strictly before it. The directives are in the order of the text, and
`countBefore` finds how many lie before a line by bisection.
-/

set_option autoImplicit false

namespace LineCoverage

open Text

/-- A directive on physical line `mark`: the line after it is line `line` of `file`. -/
structure Directive where
  mark : Nat
  line : Nat
  file : String
  deriving DecidableEq, Repr

namespace Directive

/-- The number and the file of a directive at the front of a text. The number is one digit or
more, and the file one character or more up to the next quotation mark. -/
def parse? (text : List Char) : Option (List Char × List Char) := do
  let (number, rest) ← run? isDigit (← literal? "//@line " text)
  let (file, rest) ← run? (· != '"') (← literal? " \"" rest)
  let _ ← literal? "\"" rest
  return (number, file)

/-- The number and the file of the leftmost directive in a line. -/
def find? : List Char → Option (List Char × List Char)
  | [] => none
  | c :: rest =>
    match parse? (c :: rest) with
    | some found => some found
    | none => find? rest

/-- The directives on the lines of a text, the first of which has number `first`. -/
def scanLines (first : Nat) : List (List Char) → Except Fault (List Directive)
  | [] => .ok []
  | line :: rest =>
    match find? line with
    | none => scanLines (first + 1) rest
    | some (number, file) =>
      match Numeral.read number with
      | .error fault => .error fault
      | .ok value =>
        match scanLines (first + 1) rest with
        | .error fault => .error fault
        | .ok later => .ok (⟨first, value, String.ofList file⟩ :: later)

/-- The directives of a text, in the order of its lines, which are counted from one. -/
def scan (text : String) : Except Fault (List Directive) :=
  scanLines 1 (text.toList.splitOn '\n')

/-- How many of the ascending `marks` from `low` on, and below `high`, lie before a line, and
`low` more. The marks below `low` do, and those from `high` on do not. -/
def bisect (marks : Array Nat) (line : Int) (low high : Nat) (bound : high ≤ marks.size) : Nat :=
  if below : low < high then
    let middle := (low + high) / 2
    if (marks[middle] : Int) < line then bisect marks line (middle + 1) high bound
    else bisect marks line low middle (by omega)
  else low
termination_by high - low

/-- How many of the ascending `marks` lie strictly before a line. -/
def countBefore (marks : Array Nat) (line : Int) : Nat :=
  bisect marks line 0 marks.size (Nat.le_refl _)

/-- Where a physical line comes from: as far past the line that the last directive before it
names as it is past the line after that directive. Without one it is a line of its own file.
`marks` are the lines that the directives stand on; where the two do not belong together there
may be no such directive, and no answer. -/
def relocate? (directives : Array Directive) (marks : Array Nat) (query : Location) :
    Option Location :=
  match countBefore marks query.line with
  | 0 => some query
  | last + 1 =>
    match directives[last]? with
    | none => none
    -- The line after the directive is the line that it names.
    | some directive =>
      some ⟨directive.file, query.line - directive.mark + directive.line - 1⟩

end Directive

end LineCoverage
