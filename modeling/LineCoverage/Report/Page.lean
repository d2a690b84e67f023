import LineCoverage.Coverage.Target
import LineCoverage.Numeral
import LineCoverage.Report.Heat
import LineCoverage.Source
import LineCoverage.Text.Lines
import LineCoverage.Text.Markup

/-!
# `LineCoverage.Report.Page`: the report as a page

A page has a table with one row for every target, and below it the source of
every target, line by line. A line shows its verdict by a class, how often it
ran by a second one, and its counts or the verdict's word as a note; on demand
a table of its instructions follows, which a click on the line opens.

Sources are read when the page is built, all of them before anything is written.
A source may have more lines than the coverage knows of, or fewer: the source
alone says which lines are shown. There is no page if a source cannot be read, or
if a count or the place of an instruction that it shows is too long to be
written. The numbers that count lines are as many as the lines that are there.

Everything that comes from outside, the names of files and scripts, the
disassemblies and the sources, goes into the page as text, and nothing else
does. The rows are built first, as data, and written afterwards.
-/

set_option autoImplicit false

namespace LineCoverage.Page

open Text

/-- The rules of the style sheet: what they apply to, and what they say. -/
def styleRules : List (String × String) :=
  [(".line", "white-space: pre; font-family: monospace; font-weight: bold; padding: 1px;"),
    (".full", "background-color: #fff"),
    (".none", "background-color: #faa"),
    (".some", "background-color: #ffa"),
    (".dead", "background-color: #fca"),
    (".p0", "color: #000;"),
    (".p1", "color: #200;"),
    (".p2", "color: #400;"),
    (".p3", "color: #600;"),
    (".p4", "color: #800;"),
    (".p5", "color: #a00;"),
    (".p6", "color: #c00;"),
    (".p7", "color: #e00;"),
    (".p8", "color: #f00;"),
    (".p9", "color: #f00;"),
    ("table", "border-collapse: collapse;"),
    ("td, th", "border: solid black 1px; padding: 3px 5px 3px 5px;"),
    ("th", "background-color: rgba(0,0,0,0.1)"),
    (".num", "float: left; font-weight: bold; text-align: right; margin-right: 1%; width: 4%; "
      ++ "text-decoration: none; color: inherit;"),
    (".type", "float: right; font-weight: bold; font-size: smaller; text-align: left; "
      ++ "margin-left: 1%; width: 9%;"),
    (".ops", "margin-left: 5%; padding-left: 10px;"),
    (".hidden", "display: none;")]

/-- The style sheet, one rule a line. -/
def styleSheet : String :=
  String.join (styleRules.map fun (target, rule) => target ++ " \x7b" ++ rule ++ "\x7d\n")

/-- The program of the page: a click on a line, but not on its number, opens or closes the table
of its instructions. -/
def clickProgram : List String :=
  ["document.addEventListener(\"click\", function(e) \x7b",
    "  if (e.target.classList.contains(\"num\")) return;",
    "  for (var elt = e.target; elt; elt = elt.parentNode) \x7b",
    "    if (elt.classList && elt.classList.contains(\"line\")) \x7b",
    "      var ops = elt.getElementsByTagName(\"table\")[0];",
    "      if (ops) ops.classList.toggle(\"hidden\");",
    "      return;",
    "    \x7d",
    "  \x7d",
    "\x7d, true);"]

/-- A percentage of the executable lines without decimal places. -/
def percentText (tally : Tally) (count : Int) : Except Fault String :=
  tally.percentText 0 "%" count

/-! ### The annotated source -/

/-- How a line is marked: its verdict, its heat, and the counts of its instructions. -/
structure Mark where
  verdict : Verdict
  heat : Nat
  counts : List Int
  deriving DecidableEq, Repr

/-- The classes of a line. -/
def Mark.classes : Option Mark → String
  | none => "line"
  | some mark => "line " ++ mark.verdict.label ++ " p" ++ toString mark.heat

/-- The note on a line: the counts if it is covered, the word for the verdict if it is not. -/
def Mark.note : Option Mark → Except Fault String
  | none => .ok ""
  | some mark =>
    if mark.verdict = .covered then
      (mark.counts.mapM Numeral.write).map fun counts => "// " ++ ",".intercalate counts
    else .ok ("// " ++ mark.verdict.label)

/-- A line of the annotated source. -/
structure Row where
  /-- The name of the target, which is part of the address of the row. -/
  name : String
  number : Nat
  text : String
  /-- None on a line that is not executable. -/
  mark : Option Mark
  /-- The instructions to show; none if there is no table. -/
  operations : Option (List Instruction)
  deriving DecidableEq, Repr

/-- The greatest count of a file. -/
def hottest (file : SourceFile) : Int :=
  greatest (file.lines.values.map fun line => greatest line.counts)

/-- How a line is marked in a file whose greatest count is `peak`. -/
def lineMark? (peak : Int) (line : Line) : Option Mark :=
  line.verdict.map fun verdict =>
    { verdict := verdict
      heat := heat line.counts peak
      counts := line.counts }

/-- The row for a line of the source, in a file whose greatest count is `peak`. A line of which
the coverage knows nothing has no mark and no table. -/
def row (showOps : Bool) (target : Target) (peak : Int) (number : Nat) (text : String) : Row :=
  let line := target.file.lines.get? number
  { name := target.name
    number := number
    text := text
    mark := line.bind (lineMark? peak)
    operations := if showOps then line.map Line.toList else none }

/-- The rows for a source, one for each of its lines, numbered from one. -/
def rows (showOps : Bool) (target : Target) (source : String) : List Row :=
  -- The peak is the same for all rows, so it is looked for once.
  let peak := hottest target.file
  (Text.lines source).mapIdx fun index text => row showOps target peak (index + 1) text

/-! ### Writing -/

/-- The address of a row: the name of its target and its number. -/
def Row.address (row : Row) : List Piece :=
  [.text row.name, .markup (":" ++ toString row.number)]

/-- A row of a table of instructions. -/
def operationPieces (inst : Instruction) : Except Fault (List Piece) := do
  let pc ← Numeral.write inst.pc
  let count ← Numeral.write inst.count
  return [.markup "<tr><td>", .text inst.script,
    .markup ("<td>" ++ pc ++ "<td>" ++ count ++ "<td>"), .text inst.asm, .markup "</tr>"]

/-- A table of instructions. -/
def operationsPieces (insts : List Instruction) : Except Fault (List Piece) :=
  (insts.mapM operationPieces).map fun rows =>
    .markup "<table class=\"ops hidden\"><tr><th>Script<th>PC<th>#<th>Instruction</tr>"
      :: rows.flatten ++ [.markup "</table>"]

/-- A row as it is written. An empty line is written as a space, so that it keeps its height. -/
def Row.pieces (row : Row) : Except Fault (List Piece) := do
  let note ← Mark.note row.mark
  let table ← row.operations.mapM operationsPieces
  return .markup "<div id=\"" :: row.address
    ++ .markup ("\" class=\"" ++ Mark.classes row.mark ++ "\"><a href=\"#") :: row.address
    ++ [.markup ("\" class=\"num\">" ++ toString row.number ++ "</a><span class=\"type\">"
          ++ note ++ "</span>"),
        .text (if row.text = "" then " " else row.text)]
    ++ table.getD [] ++ [.markup "</div>\n"]

/-- The heading above a source. -/
def sourceHeading (name : String) : List Piece :=
  [.markup "<a name=\"", .text name, .markup "\"><h2>", .text name, .markup "</h2></a>\n"]

/-- The source of a target, as it can be read. -/
def sourcePieces (sources : Sources) (showOps : Bool) (target : Target) :
    Except Fault (List Piece) := do
  let source ← sources target.name
  let written ← (rows showOps target source).mapM Row.pieces
  return sourceHeading target.name ++ written.flatten

/-- The row of a target in the table at the top: a link to its source, and its counts. -/
def summaryPieces (target : Target) : Except Fault (List Piece) :=
  let tally := target.file.tally
  (tally.counts.mapM fun count =>
      (percentText tally count).map fun percent =>
        "<td>" ++ toString count ++ " (" ++ percent ++ ")").map fun cells =>
    [.markup "<tr><td><a href=\"#", .text target.name, .markup "\">", .text target.name,
      .markup ("</a><td>" ++ toString tally.lines ++ String.join cells ++ "</tr>\n")]

/-- What comes before the table at the top. -/
def opening : List Piece :=
  [.markup "<html><head>\n<title>covmonkey code coverage</title>\n",
    .markup ("<style type=\"text/css\">\n" ++ styleSheet ++ "</style>\n<script>\n"
      ++ String.join (clickProgram.map (· ++ "\n")) ++ "</script>\n"),
    .markup "</head>\n<body>\n<h1>covmonkey code coverage</h1>\n"]

/-- The heading of the table at the top. -/
def summaryHeading : List Piece :=
  [.markup ("<table>\n<tr><th>Source File<th>Executable Lines<th>Covered<th>Partial<th>Uncovered"
    ++ "<th>Dead</tr>\n")]

/-- The page on some targets. -/
def pieces (sources : Sources) (showOps : Bool) (targets : List Target) :
    Except Fault (List Piece) := do
  let summary ← targets.mapM summaryPieces
  let bodies ← targets.mapM (sourcePieces sources showOps)
  return opening ++ summaryHeading ++ summary.flatten ++ [.markup "</table>\n"] ++ bodies.flatten
    ++ [.markup "</body>\n</html>\n"]

/-- The text of the page on some targets. -/
def text (sources : Sources) (showOps : Bool) (targets : List Target) : Except Fault String :=
  (pieces sources showOps targets).map writePieces

/-- The text of the annotated source of one target. -/
def sourceText (sources : Sources) (showOps : Bool) (target : Target) : Except Fault String :=
  (sourcePieces sources showOps target).map writePieces

end LineCoverage.Page
