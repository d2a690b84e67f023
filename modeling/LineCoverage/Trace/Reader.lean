import LineCoverage.Relocation.Relocator
import LineCoverage.Text.Lines
import LineCoverage.Trace.Record

/-!
# `LineCoverage.Trace.Reader`: reading a trace as it arrives

A trace arrives in chunks that end anywhere, mixed with the ordinary output of
the program under the engine. A `Reader` takes one chunk after another. It keeps
the start of a line whose end has not arrived, the script that is open, and the
scripts that are complete until someone takes them. For every line it answers
whether the line belonged to the trace, so that the rest can be passed on.

A script is opened by its header, and closed by its ending, by the next header,
or by the end of the trace. Outside a script no line but a header belongs to the
trace.

With a `Relocator`, every instruction is placed on the line that its own line
comes from. That is the one step which can fail, next to reading the numbers of
an instruction. A line that fails changes nothing but what the relocator has
read; the lines after it in the same chunk are not looked at.

`processLines_nil` and `processLines_cons` say what reading several lines is,
without the accumulator that carries the results.
-/

set_option autoImplicit false

namespace LineCoverage

/-- A line of the input without its line break, and whether it belonged to the trace. -/
structure LineResult where
  line : String
  consumed : Bool
  deriving DecidableEq, Repr

/-- A trace read so far. -/
structure Reader where
  /-- The start of a line whose end has not arrived. -/
  fragment : String
  /-- The open script. -/
  current : Option Script
  /-- The complete scripts that nobody has taken, in the order of the trace. -/
  completed : List Script
  /-- How many scripts are complete, taken or not. -/
  scriptCount : Nat
  /-- Where lines come from; without one they are lines of their own files. -/
  relocator : Option Relocator

namespace Reader

/-- A reader at the start of a trace, with the relocator that it is given, if any. -/
def start (relocator : Option Relocator) : Reader where
  fragment := ""
  current := none
  completed := []
  scriptCount := 0
  relocator := relocator

/-- Whether no header has been read. -/
def isEmpty (reader : Reader) : Bool := reader.scriptCount == 0 && reader.current.isNone

/-- Closes the open script, if there is one. -/
def close (reader : Reader) : Reader :=
  match reader.current with
  | none => reader
  | some script =>
    { reader with
      current := none
      completed := reader.completed ++ [script]
      scriptCount := reader.scriptCount + 1 }

/-- The complete scripts, and the reader without them. -/
def take (reader : Reader) : List Script × Reader :=
  (reader.completed, { reader with completed := [] })

/-- Where a line comes from. -/
def locate (sources : Sources) (reader : Reader) (place : Location) :
    Except Fault Location × Reader :=
  match reader.relocator with
  | none => (.ok place, reader)
  | some relocator =>
    let (found, relocator) := relocator.relocate sources place
    (found, { reader with relocator := some relocator })

/-- The instruction that a record of `script` gives. Its line is read and placed before its
other numbers are read, which shows where two of them fail. -/
def instruction (sources : Sources) (reader : Reader) (script : Script)
    (columns : InstructionText) : Except Fault Instruction × Reader :=
  match Numeral.read columns.line with
  | .error fault => (.error fault, reader)
  | .ok line =>
    match reader.locate sources ⟨script.path, line⟩ with
    | (.error fault, reader) => (.error fault, reader)
    | (.ok location, reader) =>
      -- The relocator has read its file by now, and a fault below leaves it so.
      match Numeral.read columns.pc, Numeral.read columns.count with
      | .error fault, _ => (.error fault, reader)
      | _, .error fault => (.error fault, reader)
      | .ok pc, .ok count =>
        (.ok
          { script := script.name
            pc := pc
            location := location
            count := count
            asm := String.ofList columns.asm
            unreachable := columns.unreachable }, reader)

/-- Reads one line, and says whether it belonged to the trace. -/
def processLine (sources : Sources) (reader : Reader) (line : String) :
    Except Fault Bool × Reader :=
  match Record.ofLine? line, reader.current with
  -- A header is read in every state. Every other record says something in a script only.
  | some (.header path number), _ =>
    (.ok true, { reader.close with current := some (Script.opened path number) })
  | _, none => (.ok false, reader)
  | none, some _ => (.ok false, reader)
  | some .ending, some _ => (.ok true, reader.close)
  | some .furniture, some _ => (.ok true, reader)
  | some (.instruction columns), some script =>
    match reader.instruction sources script columns with
    | (.error fault, reader) => (.error fault, reader)
    | (.ok inst, reader) => (.ok true, { reader with current := some (script.push inst) })

/-- Reads lines in turn, up to the first that fails. `done` are the results before them, last
one first. -/
def processLinesOnto (sources : Sources) (reader : Reader) (done : List LineResult) :
    List String → Except Fault (List LineResult) × Reader
  | [] => (.ok done.reverse, reader)
  | line :: rest =>
    match reader.processLine sources line with
    | (.error fault, reader) => (.error fault, reader)
    | (.ok consumed, reader) => processLinesOnto sources reader (⟨line, consumed⟩ :: done) rest

/-- Reads lines in turn, up to the first that fails. -/
def processLines (sources : Sources) (reader : Reader) (lines : List String) :
    Except Fault (List LineResult) × Reader :=
  processLinesOnto sources reader [] lines

/-- The results before only go in front. -/
private theorem processLinesOnto_eq (sources : Sources) (reader : Reader)
    (done : List LineResult) (lines : List String) :
    processLinesOnto sources reader done lines
      = ((processLines sources reader lines).1.map (done.reverse ++ ·),
          (processLines sources reader lines).2) := by
  unfold processLines
  induction lines generalizing reader done with
  | nil => simp [processLinesOnto, Except.map]
  | cons line rest ih =>
      simp only [processLinesOnto]
      rcases reader.processLine sources line with ⟨_ | consumed, later⟩
      · rfl
      · simp only []
        rw [ih later (⟨line, consumed⟩ :: done), ih later [⟨line, consumed⟩]]
        cases (processLinesOnto sources later [] rest).1 <;> simp [Except.map]

/-- No line, no result. -/
theorem processLines_nil (sources : Sources) (reader : Reader) :
    processLines sources reader [] = (.ok [], reader) := rfl

/-- A line, and then the others with what it left, unless it fails. -/
theorem processLines_cons (sources : Sources) (reader : Reader) (line : String)
    (rest : List String) :
    processLines sources reader (line :: rest)
      = match reader.processLine sources line with
        | (.error fault, later) => (.error fault, later)
        | (.ok consumed, later) =>
          ((processLines sources later rest).1.map (⟨line, consumed⟩ :: ·),
            (processLines sources later rest).2) := by
  show processLinesOnto sources reader [] (line :: rest) = _
  rw [processLinesOnto]
  rcases reader.processLine sources line with ⟨_ | consumed, later⟩
  · rfl
  · simp only []
    rw [processLinesOnto_eq]
    rfl

/-- Takes a chunk. What follows its last line feed is kept before any line is read. -/
def feed (sources : Sources) (reader : Reader) (chunk : String) :
    Except Fault (List LineResult) × Reader :=
  let pieces := Text.lines (reader.fragment ++ chunk)
  { reader with fragment := pieces.getLastD "" }.processLines sources pieces.dropLast

/-- Ends the trace: what is left is a line of its own, and the open script is complete. A line
that fails is dropped all the same, and leaves the script open. -/
def finish (sources : Sources) (reader : Reader) : Except Fault (List LineResult) × Reader :=
  -- A trace that ends with a line break has no line after it.
  let rest := if reader.fragment = "" then [] else [reader.fragment]
  match { reader with fragment := "" }.processLines sources rest with
  | (.error fault, reader) => (.error fault, reader)
  | (.ok results, reader) => (.ok results, reader.close)

end Reader

end LineCoverage
