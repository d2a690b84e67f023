import LineCoverage.Coverage.Target
import LineCoverage.Numeral
import LineCoverage.Text.Field

/-!
# `LineCoverage.Report.Summary`: the report as text

The report goes through the targets in order and ends with the totals over all
of them. A target takes one of three forms:

* one row of a table, in a compact report;
* one line with its percentage, where only percentages are wanted or every
  executable line is covered;
* otherwise a block with the count and the percentage of every verdict, and on
  demand a finding for every line that is not covered.

Colors mark counts above zero and findings by their verdict. Every color is
reset on the line on which it is set.

A line with a number that cannot be written fails, and nothing is known about
the other lines from that: a report is a list of lines each of which has its
text or its fault. Printing goes on up to the first fault.
-/

set_option autoImplicit false

namespace LineCoverage

open Text

/-- What a report shows. -/
structure ReportStyle where
  /-- A table instead of lines and blocks. -/
  compact : Bool
  /-- No blocks. -/
  percentOnly : Bool
  /-- Findings in the blocks. -/
  listLines : Bool
  /-- Colors in the blocks. -/
  color : Bool
  deriving DecidableEq, Repr

/-- The colors of a report. -/
inductive Color where
  | red
  | yellow
  | cyan
  deriving DecidableEq, Repr

/-- The sequence that sets a color on a terminal. -/
def Color.set : Color → String
  | .red => "\x1b[31m"
  | .yellow => "\x1b[33m"
  | .cyan => "\x1b[36m"

/-- The sequence that resets the color. -/
def Color.reset : String := "\x1b[0m"

/-- A text in a color, or as it is. -/
def paint (color : Option Color) (text : String) : String :=
  match color with
  | none => text
  | some color => color.set ++ text ++ Color.reset

/-- The color of a verdict. Covered lines have none. -/
def Verdict.color? : Verdict → Option Color
  | .covered => none
  | .partlyCovered => some .yellow
  | .uncovered => some .red
  | .dead => some .cyan

/-- What a finding says about a line. There is none about covered lines. -/
def Verdict.finding? : Verdict → Option String
  | .covered => none
  | .partlyCovered => some "partially covered"
  | .uncovered => some "uncovered"
  | .dead => some "unreachable"

namespace Report

/-- A percentage of the executable lines to one decimal place. -/
def percentText (tally : Tally) (count : Int) : Except Fault String :=
  tally.percentText 1 "%" count

/-- The width of the labels in a block. -/
def labelWidth : Nat := 17

/-- A label in its column. A wider one is not cut. -/
def labelField (label : String) : String :=
  String.ofList (justifyRight labelWidth label.toList)

/-- A line of a block: a count and its percentage, in the color of the verdict if it is above
zero. -/
def countLine (label : String) (count : Int) (tally : Tally) (verdict : Option Verdict)
    (color : Bool) : Except Fault String := do
  let number ← Numeral.write count
  let percent ← percentText tally count
  let chosen := if color && 0 < count then verdict.bind Verdict.color? else none
  return labelField label ++ ": " ++ paint chosen (number ++ " (" ++ percent ++ ")")

/-- The widths of the columns of the table: the percentage, the name, and the counts. -/
def percentWidth : Int := 6

/-- The width of the names in the table. -/
def nameWidth : Int := 32

/-- The width of the counts in the table. -/
def countWidth : Int := 7

/-- A row of the table from the texts of its columns. -/
def tableRow (percent name : String) (counts : List String) : String :=
  " ".intercalate (field percentWidth percent :: field nameWidth name
    :: counts.map (field countWidth))

/-- A row of the table with the number of executable lines and the four counts. -/
def compactRow (percent name : String) (tally : Tally) : Except Fault String :=
  ((tally.lines :: tally.counts).mapM Numeral.write).map (tableRow percent name)

/-- So many spaces. -/
def spaces (count : Nat) : String := String.ofList (List.replicate count ' ')

/-- The two heading lines of the table. The first has one word, centred over the four counts of
verdicts. -/
def compactHeading : List String :=
  [spaces 48 ++ spaces 10 ++ "Coverage" ++ spaces 10,
    tableRow "Cover%" "Filename" ["Lines", "Full", "Partial", "None", "Dead"]]

/-- The name of a target with its percentage. -/
def shortLine (name : String) (tally : Tally) : Except Fault String :=
  (percentText tally tally.covered).map fun percent => name ++ ": " ++ percent

/-- A row of the table for a tally. -/
def rowOf (name : String) (tally : Tally) : Except Fault String :=
  (percentText tally tally.covered).bind fun percent => compactRow percent name tally

/-- A line that is not covered. -/
structure Finding where
  number : Int
  verdict : Verdict
  deriving DecidableEq, Repr

/-- The lines of a file that are not covered, in ascending order of their numbers. -/
def findings (file : SourceFile) : List Finding :=
  (file.lines.keys.mergeSort fun left right => decide (left ≤ right)).filterMap fun number =>
    match file.verdict number with
    | none => none
    | some verdict => if verdict.finding?.isSome then some ⟨number, verdict⟩ else none

/-- A finding in the form in which compilers report positions. -/
def findingLine (file : SourceFile) (color : Bool) (finding : Finding) : Except Fault String :=
  (Numeral.write finding.number).map fun number =>
    let chosen := if color then finding.verdict.color? else none
    file.name ++ ":" ++ number ++ ": " ++ paint chosen (finding.verdict.finding?.getD "")

/-- The line of a block with the number of executable lines. -/
def totalCountLine (tally : Tally) : Except Fault String :=
  (Numeral.write tally.lines).map fun number => labelField "significant lines" ++ ": " ++ number

/-- The lines of a block without its findings. -/
def blockLines (name : String) (tally : Tally) (color : Bool) : List (Except Fault String) :=
  shortLine name tally ::
    [totalCountLine tally,
      countLine "covered" tally.covered tally none color,
      countLine "partially covered" tally.partlyCovered tally (some .partlyCovered) color,
      countLine "uncovered" tally.uncovered tally (some .uncovered) color,
      countLine "dead" tally.dead tally (some .dead) color].map (Except.map ("\t" ++ ·))

/-- The lines on one target. -/
def targetLines (style : ReportStyle) (target : Target) : List (Except Fault String) :=
  let tally := target.file.tally
  if style.compact then [rowOf target.name tally]
  -- Where every line is covered a block would say nothing more.
  else if style.percentOnly || tally.covered = tally.lines then [shortLine target.name tally]
  else
    blockLines target.name tally style.color ++
      if style.listLines then (findings target.file).map (findingLine target.file style.color)
      else []

/-- The total over all targets, added up from one to the next. -/
def totals (targets : List Target) : Tally :=
  targets.foldl (fun total target => total + target.file.tally) .zero

/-- The last line. -/
def totalLine (style : ReportStyle) (tally : Tally) : Except Fault String :=
  if style.compact then rowOf "ALL FILES" tally else shortLine "Overall Coverage" tally

/-- The lines of a report. -/
def lines (style : ReportStyle) (targets : List Target) : List (Except Fault String) :=
  let heading := if style.compact then compactHeading else []
  heading.map .ok ++ targets.flatMap (targetLines style) ++ [totalLine style (totals targets)]

/-- The first fault among some lines. -/
def fault? (lines : List (Except Fault String)) : Option Fault :=
  lines.findSome? fun
    | .error fault => some fault
    | .ok _ => none

/-- The texts of the lines before the first fault. -/
def written (lines : List (Except Fault String)) : List String :=
  (lines.takeWhile (·.isOk)).filterMap Except.toOption

/-- There is no fault among lines that all have their text. -/
theorem fault?_map_ok (texts : List String) : fault? (texts.map .ok) = none := by
  simp [fault?]

/-- Lines as they are printed. -/
def printed (lines : List String) : String := String.join (lines.map (· ++ "\n"))

/-- What a report gives back: the totals, if there is no fault in it. -/
def result (style : ReportStyle) (targets : List Target) : Except Fault Tally :=
  match fault? (lines style targets) with
  | some fault => .error fault
  | none => .ok (totals targets)

/-- The text of a report, if there is no fault in it. -/
def text (style : ReportStyle) (targets : List Target) : Except Fault String :=
  let report := lines style targets
  match fault? report with
  | some fault => .error fault
  | none => .ok (printed (written report))

end Report

end LineCoverage
