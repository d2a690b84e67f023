import LineCoverage.Command.Options
import LineCoverage.Coverage.Ingest
import LineCoverage.Disk
import LineCoverage.Report.Page
import LineCoverage.Report.Summary
import LineCoverage.Trace.Chunk

/-!
# `LineCoverage.Command.Run`: a run of the command

A run reads the trace, chooses the targets, prints the report, and writes the
page. It is a function from what the command finds, the disk and the standard
input, to what it leaves: its output, its exit code and the disk after it.

A file that cannot be opened ends the run with a message. Any other fault is
none that the command expects, and ends the run as it stands. Whatever was
printed before stays printed.

The standard input is a text, as far as it can be decoded. Where bytes that are
no text are let through, each comes as a character of its own. There are none to
spare for this, so a run is told which characters of its texts stand for such
bytes. They can be read, compared and printed like all others, but not be
written to a page.

The page is complete before its file is opened. Only then it is encoded, and if
that fails the file stays as it was opened, empty.

A page can be asked for without a name for its file. Then there is no page; but
to open it is a fault, at the moment at which the file would be needed.
-/

set_option autoImplicit false

namespace LineCoverage.Command

open Text

/-- The version of the command. -/
def versionText : String := "0.15"

/-- The standard input. -/
structure Input where
  /-- The text that comes in. -/
  text : String
  /-- Whether every line break in it is read as a line feed, as it is in files. The standard input
  of a POSIX system is read as it is. -/
  unifies : Bool
  /-- The fault at which the text breaks off, if it does: bytes that are no text, where the decoder
  does not let them through. -/
  ending : Option Fault

/-- A standard input that comes to its end. -/
def Input.whole (text : String) (unifies : Bool) : Input := ⟨text, unifies, none⟩

/-- The text of the standard input as it is read. -/
def Input.read (input : Input) : String :=
  if input.unifies then unified input.text else input.text

/-- What a run finds. -/
structure Surroundings where
  disk : Disk
  input : Input
  /-- The byte that a character stands for, if it stands for one that is no text. -/
  stray? : Char → Option UInt8
  /-- Whether the standard output is a terminal. -/
  terminal : Bool
  /-- The path of the working directory, for addresses. -/
  here : String
  /-- The name of a new file, for a page without a file of its own. -/
  scratch : String

/-- What a run leaves. -/
structure Outcome where
  exitCode : Nat
  stdout : String
  stderr : String
  /-- The addresses of the pages that were opened. -/
  opened : List String
  disk : Disk
  /-- The fault that ended the run, if one did. -/
  fault : Option Fault

namespace Outcome

/-- Nothing has happened yet. -/
def start (disk : Disk) : Outcome := ⟨0, "", "", [], disk, none⟩

/-- Prints a text. -/
def print (outcome : Outcome) (text : String) : Outcome :=
  { outcome with stdout := outcome.stdout ++ text }

/-- Prints a text on the standard error. -/
def warn (outcome : Outcome) (text : String) : Outcome :=
  { outcome with stderr := outcome.stderr ++ text }

/-- The message about a fault, where the command has one: a path that cannot be opened is
reported with the purpose that it was opened for. -/
def complaint (purpose : String) : Fault → String
  | .path path cause =>
    "covmonkey error: " ++ purpose ++ ": " ++ quoted path ++ ": " ++ cause.message ++ "\n"
  | _ => ""

/-- Ends with a fault. -/
def fail (outcome : Outcome) (purpose : String) (fault : Fault) : Outcome :=
  { outcome.warn (complaint purpose fault) with exitCode := 1, fault := some fault }

/-- The fault that ended the run, if the command has no message for it. -/
def unexpected (outcome : Outcome) : Option Fault :=
  outcome.fault.filter fun
    | .path _ _ => false
    | _ => true

end Outcome

/-- A trace as it is read. -/
structure Stream where
  text : String
  /-- The fault at which it breaks off, if it does. -/
  ending : Option Fault
  /-- Whether the lines that do not belong to the trace are passed on. -/
  echo : Bool

/-- The trace, from its file or from the standard input. Lines are passed on only from there, and
unless the user forbids it. -/
def traceStream (surroundings : Surroundings) (settings : Settings) : Except Fault Stream :=
  match settings.data with
  | none => .ok piped
  | some path =>
    if path = "" then .ok piped
    else (surroundings.disk.readText path).map fun text => ⟨text, none, false⟩
where
  /-- The trace on the standard input. -/
  piped : Stream := ⟨surroundings.input.read, surroundings.input.ending, settings.echo⟩

/-- The address of a page. -/
def address (here path : String) : String :=
  let place := Place.ofPath path
  match place.origin with
  | .root => "file://" ++ place.spelling
  | .above _ => "file://" ++ here ++ "/" ++ place.spelling

/-- What a page is needed for, in messages. -/
def pagePurpose : String := "could not generate HTML report"

/-- The bytes of a page. A character that stands for a byte which is no text has none; the first
stretch of such characters is the fault. -/
def encodePage (stray? : Char → Option UInt8) (page : List Char) : Except Fault (List UInt8) :=
  match page.findIdx? fun c => (stray? c).isSome with
  | none => .ok (Utf8.encode page)
  | some position =>
    let stretch := (page.drop position).takeWhile fun c => (stray? c).isSome
    .error (.unencodable position (stretch.filterMap stray?))

/-- Writes the page to a path, and opens it if asked to. -/
def writePage (surroundings : Surroundings) (settings : Settings) (targets : List Target)
    (outcome : Outcome) (path : String) : Outcome :=
  match Page.text outcome.disk.readText settings.showOps targets with
  | .error fault => outcome.fail pagePurpose fault
  | .ok page =>
    match outcome.disk.openPlace path with
    | .error fault => outcome.fail pagePurpose fault
    | .ok place =>
      -- The file is there from now on, whatever comes of the page.
      let outcome := { outcome with disk := outcome.disk.store place [] }
      match encodePage surroundings.stray? page.toList with
      | .error fault => outcome.fail pagePurpose fault
      | .ok bytes =>
        { outcome with
          disk := outcome.disk.store place bytes
          opened := if settings.openPage then [address surroundings.here path] else [] }

/-- Fails to write a page to a file that was not named. To see whether it is there is the first
step; where that does not matter, the page is built before. -/
def failUnnamed (settings : Settings) (targets : List Target) (outcome : Outcome) : Outcome :=
  if settings.force then
    match Page.text outcome.disk.readText settings.showOps targets with
    | .error fault => outcome.fail pagePurpose fault
    | .ok _ => outcome.fail pagePurpose .openWithoutPath
  else outcome.fail pagePurpose .lookupWithoutPath

/-- The page, if the settings ask for one. Without a word about its file it goes to a new one,
which is there at once. A path that is taken is kept, unless the user gives it up. -/
def page (surroundings : Surroundings) (settings : Settings) (targets : List Target)
    (outcome : Outcome) : Outcome :=
  match settings.page with
  | .unsaid =>
    if settings.openPage then
      -- The new file stays, empty, if the page cannot be built.
      let path := surroundings.scratch
      writePage surroundings settings targets { outcome with disk := outcome.disk.put path [] } path
    else outcome
  | .unnamed => if settings.openPage then failUnnamed settings targets outcome else outcome
  | .file path =>
    -- An empty path asks for no page, but it cannot be opened either.
    if path = "" && !settings.openPage then outcome
    else if !settings.force && outcome.disk.isTaken path then
      outcome.print (path ++ " exists: no HTML output written. Use -force to overwrite.\n")
    else writePage surroundings settings targets outcome path

/-- The report and the page on a coverage. -/
def present (surroundings : Surroundings) (settings : Settings) (coverage : Coverage)
    (outcome : Outcome) : Outcome :=
  let ((targets, unknown), _) := coverage.resolveTargets settings.targets
  let outcome := outcome.warn (String.join (unknown.map unknownTargetWarning))
  let style : ReportStyle :=
    { compact := settings.compact
      percentOnly := settings.percentOnly
      listLines := settings.listLines
      color := settings.color }
  if settings.quiet then page surroundings settings targets outcome
  else
    let report := Report.lines style targets
    -- The lines before a fault are printed by the time it shows.
    let outcome := outcome.print (Report.printed (Report.written report))
    match Report.fault? report with
    | some fault => outcome.fail "could not report" fault
    | none => page surroundings settings targets outcome

/-- What is said about a trace without scripts. -/
def noCoverageLines : List String :=
  ["covmonkey: no coverage data to process.",
    "covmonkey: is the script engine a debug build with opcode counts enabled?"]

/-- A run with some settings. -/
def runWith (surroundings : Surroundings) (settings : Settings) : Outcome :=
  let outcome := Outcome.start surroundings.disk
  match traceStream surroundings settings with
  | .error fault => outcome.fail "could not read trace file" fault
  | .ok trace =>
    let ingested := ingestUntil surroundings.disk.readText (Relocator.freshIf settings.atLines)
      trace.ending (chunks chunkSize trace.text)
    -- Lines that do not belong to the trace come first, even if the trace fails later.
    let outcome := if trace.echo then outcome.print (Report.printed ingested.passed) else outcome
    match ingested.outcome with
    | .error fault => outcome.fail "could not read source file for @line remapping" fault
    | .ok none => outcome.print (Report.printed noCoverageLines)
    | .ok (some coverage) => present surroundings settings coverage outcome

/-- A run with some arguments. The texts about the options themselves, that is the help and the
usage in front of the message about a misuse, are left out. -/
def run (surroundings : Surroundings) (arguments : List String) : Outcome :=
  let outcome := Outcome.start surroundings.disk
  match Request.ofTexts surroundings.terminal arguments with
  | .error misuse =>
    { outcome.warn ("covmonkey: error: " ++ misuse.message ++ "\n") with exitCode := 2 }
  | .ok .help => outcome
  | .ok .version => outcome.print (versionText ++ "\n")
  | .ok (.run settings) => runWith surroundings settings

end LineCoverage.Command
