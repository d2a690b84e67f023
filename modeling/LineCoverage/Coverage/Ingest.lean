import LineCoverage.Coverage.Model
import LineCoverage.Trace.Reader

/-!
# `LineCoverage.Coverage.Ingest`: from a trace to its coverage

A trace is read chunk by chunk. After each chunk the lines that do not belong to
the trace are passed on, the scripts that are complete are added to the
coverage, and nothing else is kept of them. A trace in which no script was ever
opened has no coverage, which is not the same as a coverage without files.

If a line fails, the whole reading fails. What was passed on before stays passed
on; of the chunk with the failing line nothing is. It fails, too, if there is no
next chunk because the trace cannot be read on.
-/

set_option autoImplicit false

namespace LineCoverage

/-- The lines passed on, and the coverage of the trace or what went wrong. -/
structure Ingested where
  passed : List String
  outcome : Except Fault (Option Coverage)

/-- A trace under way: the reader, the coverage of the scripts that are complete, and the lines
passed on. -/
structure Intake where
  reader : Reader
  coverage : Coverage
  passed : Array String

namespace Intake

/-- Before the first chunk. -/
def start (relocator : Option Relocator) : Intake := ⟨.start relocator, .empty, #[]⟩

/-- The lines that do not belong to the trace. -/
def unconsumed (results : List LineResult) : List String :=
  (results.filter (!·.consumed)).map (·.line)

/-- Passes lines on and adds the complete scripts, once a reader has answered. -/
def absorb (intake : Intake) (answer : Except Fault (List LineResult) × Reader) :
    Except Fault Intake :=
  match answer with
  | (.error fault, _) => .error fault
  | (.ok results, reader) =>
    let (scripts, reader) := reader.take
    .ok
      { reader := reader
        coverage := scripts.foldl Coverage.addScript intake.coverage
        passed := intake.passed ++ (unconsumed results).toArray }

/-- Ends the trace. -/
def finish (sources : Sources) (intake : Intake) : Ingested :=
  match intake.absorb (intake.reader.finish sources) with
  | .error fault => ⟨intake.passed.toList, .error fault⟩
  | .ok intake =>
    ⟨intake.passed.toList, .ok (if intake.reader.isEmpty then none else some intake.coverage)⟩

/-- Takes the chunks in turn, and ends the trace, unless a fault ends it before. -/
def run (sources : Sources) (ending : Option Fault) (intake : Intake) : List String → Ingested
  | [] =>
    match ending with
    | none => intake.finish sources
    | some fault => ⟨intake.passed.toList, .error fault⟩
  | chunk :: rest =>
    match intake.absorb (intake.reader.feed sources chunk) with
    | .error fault => ⟨intake.passed.toList, .error fault⟩
    | .ok intake => intake.run sources ending rest

end Intake

/-- The coverage of a trace that arrives in chunks, and behind them with a fault if it cannot be
read on. Lines are placed by the relocator, if there is one. -/
def ingestUntil (sources : Sources) (relocator : Option Relocator) (ending : Option Fault)
    (chunks : List String) : Ingested :=
  (Intake.start relocator).run sources ending chunks

/-- The coverage of a trace that arrives in chunks. -/
def ingest (sources : Sources) (relocator : Option Relocator) (chunks : List String) : Ingested :=
  ingestUntil sources relocator none chunks

end LineCoverage
