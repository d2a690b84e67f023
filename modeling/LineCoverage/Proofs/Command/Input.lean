import LineCoverage.Proofs.Command.Options
import LineCoverage.Proofs.Command.Stages
import LineCoverage.Proofs.Coverage.Breaks
import LineCoverage.Proofs.Coverage.Passing

/-!
# `LineCoverage.Proofs.Command.Input`: where a trace comes from does not matter

A trace can be in a file, or come through the standard input with or without the
lines that do not belong to it being passed on. `run_alike` proves that these
three are one run but for the lines passed on, which come first in its output,
and this also where the run fails.

A file is read with line feeds as its only line breaks. If the standard input is
read as it is, then a carriage return inside a line breaks that line in the file
only, and the run on the file is another one (`run_broken_line`). At the end of
a line it does no harm (`outcome_ingest_unified`).

Once the trace is there nothing looks at where it came from: `runOn` is what is
left of the run, and `runOn_input` says so. Every part of it only adds to the
output, so what is printed before stays in front and changes nothing else. This
is shown from part to part by the lemmas on `Outcome.behind`, and `runOn_echo`
puts them together.
-/

set_option autoImplicit false

namespace LineCoverage.Command

open Text

/-! ### What comes first in the output -/

/-- An outcome with more at the beginning of its output. -/
def Outcome.behind (outcome : Outcome) (text : String) : Outcome :=
  { outcome with stdout := text ++ outcome.stdout }

namespace Outcome

variable (outcome : Outcome) (text : String)

/-- What is printed goes to the end of the output. -/
theorem print_behind (more : String) :
    (outcome.behind text).print more = (outcome.print more).behind text := by
  show { outcome with stdout := text ++ outcome.stdout ++ more } = _
  rw [String.append_assoc]
  rfl

/-- A warning does not go to the output. -/
theorem warn_behind (message : String) :
    (outcome.behind text).warn message = (outcome.warn message).behind text := rfl

/-- Nor does the message about a fault. -/
theorem fail_behind (purpose : String) (fault : Fault) :
    (outcome.behind text).fail purpose fault = (outcome.fail purpose fault).behind text := rfl

/-- Where nothing was printed, to print is to print first. -/
theorem print_start (disk : Disk) : (start disk).print text = (start disk).behind text := by
  show { start disk with stdout := "" ++ text } = { start disk with stdout := text ++ "" }
  rw [String.empty_append, String.append_empty]

end Outcome

section Behind

variable (surroundings : Surroundings) (settings : Settings) (targets : List Target)
  (outcome : Outcome) (text : String)

/-- Writing a page prints nothing. -/
theorem writePage_behind (path : String) :
    writePage surroundings settings targets (outcome.behind text) path
      = (writePage surroundings settings targets outcome path).behind text := by
  have hdisk : (outcome.behind text).disk = outcome.disk := rfl
  unfold writePage
  rw [hdisk]
  cases Page.text outcome.disk.readText settings.showOps targets with
  | error fault => rfl
  | ok page =>
      dsimp only
      cases outcome.disk.openPlace path with
      | error fault => rfl
      | ok place =>
          dsimp only
          cases encodePage surroundings.stray? page.toList <;> rfl

/-- Nor does the failure to write one. -/
theorem failUnnamed_behind :
    failUnnamed settings targets (outcome.behind text)
      = (failUnnamed settings targets outcome).behind text := by
  have hdisk : (outcome.behind text).disk = outcome.disk := rfl
  unfold failUnnamed
  rw [hdisk]
  split
  · cases Page.text outcome.disk.readText settings.showOps targets <;> rfl
  · rfl

/-- The page may print that its path is taken. -/
theorem page_behind :
    page surroundings settings targets (outcome.behind text)
      = (page surroundings settings targets outcome).behind text := by
  have hdisk : (outcome.behind text).disk = outcome.disk := rfl
  unfold page
  rw [hdisk]
  cases settings.page with
  | unsaid =>
      dsimp only
      split
      · exact writePage_behind surroundings settings targets
          { outcome with disk := outcome.disk.put surroundings.scratch [] } text _
      · rfl
  | unnamed =>
      dsimp only
      split
      · exact failUnnamed_behind settings targets outcome text
      · rfl
  | file path =>
      dsimp only
      split
      · rfl
      · split
        · exact outcome.print_behind text _
        · exact writePage_behind surroundings settings targets outcome text path

/-- The report is printed, and the page follows. -/
theorem present_behind (coverage : Coverage) :
    present surroundings settings coverage (outcome.behind text)
      = (present surroundings settings coverage outcome).behind text := by
  unfold present
  dsimp only
  rw [Outcome.warn_behind]
  split
  · exact page_behind _ _ _ _ text
  · rw [Outcome.print_behind]
    split
    · exact Outcome.fail_behind _ text _ _
    · exact page_behind _ _ _ _ text

end Behind

/-! ### Behind the reading of the trace -/

/-- What is left does not depend on what the input was or was to be. -/
theorem runOn_input (surroundings : Surroundings) (settings : Settings) (input : Input)
    (data : Option String) (told : Bool) (trace : Stream) :
    runOn { surroundings with input := input } { settings with data := data, echo := told } trace
      = runOn surroundings settings trace := rfl

/-- Where no lines are passed on, it depends on what comes of the trace and on nothing else. -/
theorem runOn_congr {surroundings : Surroundings} {settings : Settings} {trace other : Stream}
    (htrace : trace.echo = false) (hother : other.echo = false)
    (h : (ingested surroundings settings trace).outcome
      = (ingested surroundings settings other).outcome) :
    runOn surroundings settings trace = runOn surroundings settings other := by
  unfold runOn
  dsimp only
  rw [htrace, hother, h]
  rfl

/-- The lines passed on come first, and change nothing else. -/
theorem runOn_echo (surroundings : Surroundings) (settings : Settings) (text : String)
    (ending : Option Fault) :
    runOn surroundings settings ⟨text, ending, true⟩
      = (runOn surroundings settings ⟨text, ending, false⟩).behind
          (Report.printed (ingested surroundings settings ⟨text, ending, true⟩).passed) := by
  have hsame : ingested surroundings settings ⟨text, ending, true⟩
      = ingested surroundings settings ⟨text, ending, false⟩ := rfl
  unfold runOn
  rw [hsame]
  dsimp only
  rw [if_pos rfl, if_neg Bool.false_ne_true, Outcome.print_start]
  cases (ingested surroundings settings ⟨text, ending, false⟩).outcome with
  | error fault => rfl
  | ok found =>
      cases found with
      | none => exact Outcome.print_behind _ _ _
      | some coverage => exact present_behind _ _ _ _ _

/-! ### Three ways to the trace -/

/-- The trace in a file: nothing of it is passed on. -/
theorem traceStream_file {surroundings : Surroundings} (settings : Settings) {path trace : String}
    (hpath : path ≠ "")
    (hfile : surroundings.disk.readBytes path = .ok (Utf8.encode trace.toList)) :
    traceStream surroundings { settings with data := some path }
      = .ok ⟨unified trace, none, false⟩ := by
  show (if path = "" then _
    else (surroundings.disk.readText path).map (⟨·, none, false⟩ : String → Stream)) = _
  rw [if_neg hpath, Disk.readText, hfile]
  show Except.ok (⟨String.ofList (unifyBreaks (Utf8.decode (Utf8.encode trace.toList))), none,
    false⟩ : Stream) = _
  rw [Utf8.decode_encode]
  rfl

/-- The trace on the standard input. -/
theorem traceStream_input (surroundings : Surroundings) {settings : Settings} (input : Input)
    (h : settings.data = none) :
    traceStream { surroundings with input := input } settings
      = .ok ⟨input.read, input.ending, settings.echo⟩ := by
  unfold traceStream
  rw [h]
  rfl

/-- The same comes of a trace in a file and on the standard input, where either unifies its line
breaks or these stand at the ends of lines only. -/
theorem outcome_ingested_input (surroundings : Surroundings) (settings : Settings) {trace : String}
    {unifies : Bool} (h : unifies = true ∨ ReturnsEndLines trace) (echo told : Bool) :
    (ingested surroundings settings ⟨unified trace, none, echo⟩).outcome
      = (ingested surroundings settings
          ⟨(Input.whole trace unifies).read, none, told⟩).outcome := by
  have hjoin : ∀ text, String.join (chunks chunkSize text) = text :=
    fun text => join_chunks chunkSize text (by decide)
  cases unifies with
  | true => rfl
  | false =>
      have hreturns : ReturnsEndLines trace := h.resolve_left Bool.false_ne_true
      rw [← hjoin trace] at hreturns
      refine outcome_ingest_unified surroundings.disk.readText
        (Relocator.freshIf settings.atLines) hreturns ?_
      rw [hjoin, hjoin]
      rfl

/-- **The three ways to a trace agree.** Let a command line make sense and say neither where the
trace is nor that lines are not passed on. With the trace in a file it does the same as with nothing
passed on and the trace, with line feeds only, as the standard input; and the same as with the trace
itself there, if the standard input unifies the line breaks as a file does, or the trace has
carriage returns at the ends of lines only. Without the word about passing on there is only more at
the beginning of the output: the lines of the standard input that do not belong to the trace, all of
them if it can be ingested and some first ones otherwise. -/
theorem run_alike {surroundings : Surroundings} {path trace : String} {arguments : List String}
    {settings : Settings} (unifies : Bool) (hpath : path ≠ "")
    (hplain : path.toList.head? ≠ some '-')
    (hfile : surroundings.disk.readBytes path = .ok (Utf8.encode trace.toList))
    (hdata : Omits .data arguments) (hecho : Omits .noEcho arguments)
    (haccepted : Request.ofTexts surroundings.terminal arguments = .ok (.run settings)) :
    let piped := { surroundings with input := .whole trace unifies }
    let silent := run piped ("-no-echo" :: arguments)
    let foreign := foreignLines false (linesOf piped.input.read)
    run surroundings ("-data" :: path :: arguments)
        = run { surroundings with input := .whole (unified trace) false }
            ("-no-echo" :: arguments) ∧
    (unifies = true ∨ ReturnsEndLines trace →
      run surroundings ("-data" :: path :: arguments) = silent) ∧
    ∃ echoed, run piped arguments = silent.behind (Report.printed echoed) ∧
      echoed <+: foreign ∧
      ∀ found,
        (ingested surroundings settings ⟨piped.input.read, none, true⟩).outcome = .ok found →
        echoed = foreign := by
  intro piped silent foreign
  have hnone := data_of_omits hdata haccepted
  -- All runs are runs on the trace, with the lines passed on or not.
  have hquiet : ∀ input : Input, input.ending = none →
      run { surroundings with input := input } ("-no-echo" :: arguments)
        = runOn surroundings settings ⟨input.read, none, false⟩ := by
    intro input hending
    let quiet := { surroundings with input := input }
    have hrequest : Request.ofTexts quiet.terminal ("-no-echo" :: arguments)
        = .ok (.run { settings with echo := false }) := ofTexts_noEcho hecho haccepted
    have hstream : traceStream quiet { settings with echo := false }
        = .ok ⟨input.read, input.ending, false⟩ := traceStream_input surroundings input hnone
    rw [hending] at hstream
    rw [run_eq hrequest, runWith_eq hstream]
    exact runOn_input surroundings settings input settings.data false _
  have hsilent : silent = runOn surroundings settings ⟨piped.input.read, none, false⟩ :=
    hquiet (.whole trace unifies) rfl
  have hread : run surroundings ("-data" :: path :: arguments)
      = runOn surroundings settings ⟨unified trace, none, false⟩ := by
    rw [run_eq (ofTexts_data hplain hdata haccepted),
      runWith_eq (traceStream_file settings hpath hfile)]
    exact runOn_input surroundings settings surroundings.input (some path) settings.echo _
  have hloud : run piped arguments
      = runOn surroundings settings ⟨piped.input.read, none, true⟩ := by
    have hrequest : Request.ofTexts piped.terminal arguments = .ok (.run settings) := haccepted
    have hinput := traceStream_input surroundings (.whole trace unifies) hnone
    rw [echo_of_omits hecho haccepted] at hinput
    rw [run_eq hrequest, runWith_eq hinput]
    exact runOn_input surroundings settings piped.input settings.data settings.echo _
  have hpassed := ingest_passed surroundings.disk.readText (Relocator.freshIf settings.atLines)
    (chunks chunkSize piped.input.read)
  rw [join_chunks chunkSize piped.input.read (by decide)] at hpassed
  refine ⟨?_, fun hbreaks => ?_, _, ?_, hpassed.1, hpassed.2⟩
  · rw [hread]
    exact (hquiet (.whole (unified trace) false) rfl).symm
  · rw [hread, hsilent]
    exact runOn_congr rfl rfl
      (outcome_ingested_input surroundings settings hbreaks false false)
  · rw [hloud, hsilent]
    exact runOn_echo surroundings settings piped.input.read none

/-- A trace between two lines of the program, with the line breaks of another system. The standard
input is read as it is, and so are the lines that are passed on. -/
theorem run_alike_percent :
    let trace := "hello\n--- SCRIPT a.js:1 ---\r\n00000:  2  [1] op\r\nbye\r\n"
    let found : Surroundings :=
      { disk := Disk.empty.put "t.txt" (Utf8.encode trace.toList)
        input := .whole "not read" true
        stray? := fun _ => none
        terminal := false
        here := "/work"
        scratch := "page.html" }
    let piped : Surroundings := { found with input := .whole trace false }
    run found ["-data", "t.txt", "-percent"] = run piped ["-no-echo", "-percent"] ∧
      run piped ["-percent"]
        = (run piped ["-no-echo", "-percent"]).behind "hello\nbye\r\n" := by
  intro trace found piped
  have htold : Argument.ofTexts ["-percent"] = .ok [.option .percent] := rfl
  have homits : ∀ switch, switch ≠ .percent → Omits switch ["-percent"] := by
    intro switch hswitch arguments harguments argument hmem
    rw [htold] at harguments
    cases harguments
    rw [List.mem_singleton] at hmem
    subst hmem
    simpa [Argument.switch?] using hswitch.symm
  have haccepted : Request.ofTexts found.terminal ["-percent"]
      = .ok (.run { Settings.initial false with percentOnly := true }) := by
    rw [Request.ofTexts, htold]
    show Request.ofArguments (.initial false) [] [.option .percent] = _
    rw [ofArguments_option _ _ [] (by decide) (by decide)]
    show Request.ofArguments { Settings.initial false with percentOnly := true } [] [] = _
    rw [Request.ofArguments, if_pos rfl]
  have hfile : found.disk.readBytes "t.txt" = .ok (Utf8.encode trace.toList) := by rfl
  have hlines : linesOf trace
      = ["hello", "--- SCRIPT a.js:1 ---\r", "00000:  2  [1] op\r", "bye\r"] := by decide
  have hreturns : ReturnsEndLines trace := by
    unfold ReturnsEndLines
    rw [hlines]
    decide
  obtain ⟨-, hdata, echoed, hechoed, -, hall⟩ := run_alike false (by decide) (by decide) hfile
    (homits .data (by decide)) (homits .noEcho (by decide)) haccepted
  have hforeign : foreignLines false (linesOf trace) = ["hello", "bye\r"] := by
    rw [hlines]
    decide
  obtain ⟨reader, hread⟩ : ∃ reader, (Reader.start none).processLines found.disk.readText
      (linesOf trace)
      = (.ok [⟨"hello", false⟩, ⟨"--- SCRIPT a.js:1 ---\r", true⟩, ⟨"00000:  2  [1] op\r", true⟩,
          ⟨"bye\r", false⟩], reader) := by
    rw [hlines]
    exact ⟨_, rfl⟩
  let stream : Stream := ⟨trace, none, true⟩
  have hending : stream.ending = none := rfl
  have hingested := (isBatch_ingested found { Settings.initial false with percentOnly := true }
    hending).complete _ reader hread
  have hall : echoed = foreignLines false (linesOf trace) :=
    hall _ (congrArg Ingested.outcome hingested)
  rw [hforeign] at hall
  subst hall
  exact ⟨hdata (.inr hreturns), hechoed⟩

/-- A carriage return inside a line ends that line in a file. On a standard input that is read as it
is it does not, and there is no header. -/
theorem run_broken_line :
    let trace := "--- SCRIPT a.js:1 ---\r00000:  1  [1] op\n"
    let found : Surroundings :=
      { disk := Disk.empty.put "t.txt" (Utf8.encode trace.toList)
        input := .whole trace false
        stray? := fun _ => none
        terminal := false
        here := "/work"
        scratch := "page.html" }
    found.disk.readBytes "t.txt" = .ok (Utf8.encode trace.toList) ∧
      (run found ["-data", "t.txt", "-quiet"]).stdout = "" ∧
      (run found ["-no-echo", "-quiet"]).stdout = Report.printed noCoverageLines := by
  decide +kernel

end LineCoverage.Command
