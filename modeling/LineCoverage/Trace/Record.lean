import LineCoverage.Text.DecimalDigit
import LineCoverage.Text.Scan

/-!
# `LineCoverage.Trace.Record`: the records of a trace

The engine prints its counts as lines of text, one section for every script:

    --- SCRIPT lib/a.js:1 ---
    main:
    loc     line  op
    -----   ----  --
    00000:     1  [   3] getarg 0
    00003:     2  x [   0] stop
    --- END SCRIPT lib/a.js:1 ---

A `Record` is what one such line says: a header opens a section and names the
script, an ending closes it, an instruction gives one operation of the script,
and furniture (the label and the two heading lines) says nothing. Any other line
is no record: `Record.ofLine?` is the recogniser.

Numbers stay runs of digits here. A header keeps its number as it is written,
and reading the numbers of an instruction can fail, which is no matter of
recognition.
-/

set_option autoImplicit false

namespace LineCoverage

open Text

/-- The columns of an instruction record, as they are written. -/
structure InstructionText where
  /-- The position of the operation in its script. -/
  pc : List Char
  /-- The source line that it belongs to. -/
  line : List Char
  /-- Whether the engine proved that it can never run. -/
  unreachable : Bool
  /-- How many times it ran. -/
  count : List Char
  /-- Its disassembly, without the blanks around it. -/
  asm : List Char
  deriving DecidableEq, Repr

/-- What a line of a trace says. -/
inductive Record where
  /-- A section begins, for the script that starts at line `number` of the file at `path`. -/
  | header (path number : List Char)
  /-- The section ends. -/
  | ending
  /-- An operation of the script. -/
  | instruction (text : InstructionText)
  /-- A label or a heading inside a section. -/
  | furniture
  deriving DecidableEq, Repr

namespace Record

/-- The path and the number of a line `opening path:number ---`. The path is not empty, holds no
line feed, and ends at the last colon; the number is one digit or more. Behind the opening the
line is read backwards, because there its parts are easy to tell: dashes, digits, a colon. -/
def banner? (opening : String) (text : List Char) : Option (List Char × List Char) := do
  let body ← literal? opening text
  let (number, rest) ← run? isDigit (← literal? "--- " body.reverse)
  let path ← literal? ":" rest
  if path = [] || path.contains '\n' then none else some (path.reverse, number.reverse)

/-- Whether a text begins with the mark of an unreachable operation, an `x` and blanks, and
the rest. An `x` without blanks is no column at all. -/
def mark? (text : List Char) : Option (Bool × List Char) :=
  match literal? "x" text with
  | none => some (false, text)
  | some rest => (blanks? rest).map (true, ·)

/-- The columns of an instruction: at least five digits and a colon, the line, the mark of an
unreachable operation, the count in brackets, and the disassembly. Blanks separate the
columns, and the disassembly holds no line feed. -/
def instruction? (text : List Char) : Option InstructionText := do
  let (pc, rest) ← (run? isDigit text).filter (5 ≤ ·.1.length)
  let rest ← blanks? (← literal? ":" rest)
  let (line, rest) ← run? isDigit rest
  let (unreachable, rest) ← mark? (← blanks? rest)
  -- Here and before the disassembly there may be no blank at all.
  let (count, rest) ← run? isDigit (trimStart (← literal? "[" rest))
  let asm := trimStart (← literal? "]" rest)
  if asm.contains '\n' then none else some ⟨pc, line, unreachable, count, trimEnd asm⟩

/-- The heading of the columns: `loc`, `line` and `op`, between blanks. -/
def isHeading (text : List Char) : Bool :=
  (do
    let rest ← blanks? (← literal? "loc" text)
    let rest ← blanks? (← literal? "line" rest)
    literal? "op" rest) == some []

/-- The rule under the heading: three runs of dashes, between blanks. -/
def isRule (text : List Char) : Bool :=
  (do
    let (_, rest) ← run? (· == '-') text
    let (_, rest) ← run? (· == '-') (← blanks? rest)
    let (_, rest) ← run? (· == '-') (← blanks? rest)
    return rest) == some []

/-- The lines of a section that say nothing. -/
def isFurniture (text : List Char) : Bool :=
  isHeading text || isRule text || text == "main:".toList

/-- The record on a line without its line break. -/
def ofText? (text : List Char) : Option Record :=
  match banner? "--- SCRIPT " text with
  | some (path, number) => some (.header path number)
  | none =>
    -- An ending closes whatever script is open, so its name is not compared.
    if (banner? "--- END SCRIPT " text).isSome then some .ending
    else match instruction? text with
      | some columns => some (.instruction columns)
      | none => if isFurniture text then some .furniture else none

/-- The record on a line. Carriage returns at its end belong to the line break of the system
that wrote the trace. -/
def ofLine? (line : String) : Option Record :=
  ofText? (dropTrailing (· == '\r') line.toList)

end Record

end LineCoverage
