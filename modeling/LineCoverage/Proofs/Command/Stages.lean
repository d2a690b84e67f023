import LineCoverage.Command.Run
import LineCoverage.Proofs.Coverage.Chunking
import LineCoverage.Proofs.Report.Agreement

/-!
# `LineCoverage.Proofs.Command.Stages`: a run, part by part

A run reads its arguments, the trace, and then whatever the trace asks for. Each
part can end the run. `run_eq`, `runWith_eq` and `present_cases` say what follows
when it does not, so that a statement about a run is one about its parts.
-/

set_option autoImplicit false

namespace LineCoverage.Command

variable {surroundings : Surroundings} {settings : Settings}

/-- A command line that asks for a run. -/
theorem run_eq {arguments : List String}
    (h : Request.ofTexts surroundings.terminal arguments = .ok (.run settings)) :
    run surroundings arguments = runWith surroundings settings := by
  unfold run
  rw [h]

/-- What comes of a trace: the lines that are passed on, and its coverage. -/
def ingested (surroundings : Surroundings) (settings : Settings) (trace : Stream) : Ingested :=
  ingestUntil surroundings.disk.readText (Relocator.freshIf settings.atLines) trace.ending
    (chunks chunkSize trace.text)

/-- A trace that comes to its end is read in chunks, which do not matter. -/
theorem isBatch_ingested (surroundings : Surroundings) (settings : Settings) {trace : Stream}
    (h : trace.ending = none) :
    IsBatch surroundings.disk.readText (Relocator.freshIf settings.atLines) trace.text
      (ingested surroundings settings trace) := by
  have hbatch := isBatch_join surroundings.disk.readText (Relocator.freshIf settings.atLines)
    (chunks chunkSize trace.text)
  rw [join_chunks chunkSize trace.text (by decide)] at hbatch
  unfold ingested
  rwa [h]

/-- Of a trace that breaks off there is no coverage, whatever was read of it. -/
theorem outcome_run_ne_ok (sources : Sources) (ending : Fault) (intake : Intake)
    (chunks : List String) (found : Option Coverage) :
    (intake.run sources (some ending) chunks).outcome ≠ .ok found := by
  induction chunks generalizing intake with
  | nil => simp [Intake.run]
  | cons chunk rest ih =>
      rw [Intake.run]
      cases intake.absorb (intake.reader.feed sources chunk) with
      | error fault => simp
      | ok later => exact ih later

/-- A trace with a coverage comes to its end. -/
theorem ending_of_ok {trace : Stream} {found : Option Coverage}
    (h : (ingested surroundings settings trace).outcome = .ok found) : trace.ending = none := by
  cases hending : trace.ending with
  | none => rfl
  | some fault =>
      unfold ingested at h
      rw [hending] at h
      exact absurd h (outcome_run_ne_ok _ fault _ _ found)

/-- What is left of a run once its trace is there. -/
def runOn (surroundings : Surroundings) (settings : Settings) (trace : Stream) : Outcome :=
  let found := ingested surroundings settings trace
  let outcome := Outcome.start surroundings.disk
  let outcome := if trace.echo then outcome.print (Report.printed found.passed) else outcome
  match found.outcome with
  | .error fault => outcome.fail "could not read source file for @line remapping" fault
  | .ok none => outcome.print (Report.printed noCoverageLines)
  | .ok (some coverage) => present surroundings settings coverage outcome

/-- A run whose trace can be read. -/
theorem runWith_eq {trace : Stream} (h : traceStream surroundings settings = .ok trace) :
    runWith surroundings settings = runOn surroundings settings trace := by
  unfold runWith
  rw [h]
  rfl

/-- The look of the text report. -/
def Settings.style (settings : Settings) : ReportStyle where
  compact := settings.compact
  percentOnly := settings.percentOnly
  listLines := settings.listLines
  color := settings.color

/-- The targets of the report and the page. -/
def Settings.targetsIn (settings : Settings) (coverage : Coverage) : List Target :=
  (coverage.resolveTargets settings.targets).1.1

/-- The text report is not wanted, or none of the numbers that it has to write is too long. -/
def Reported (settings : Settings) (coverage : Coverage) : Prop :=
  settings.quiet = true ∨
    ∀ n ∈ Report.numbers settings.style (settings.targetsIn coverage),
      n.natAbs < Numeral.firstTooLong

/-- The report either comes to its end, and the page follows, or it ends the run. -/
theorem present_cases (coverage : Coverage) (outcome : Outcome) :
    (Reported settings coverage ∧ ∃ reported : Outcome, reported.disk = outcome.disk ∧
      present surroundings settings coverage outcome
        = page surroundings settings (settings.targetsIn coverage) reported) ∨
    (¬Reported settings coverage ∧
      (present surroundings settings coverage outcome).disk = outcome.disk) := by
  unfold Reported
  rw [← Report.fault?_lines_eq_none_iff]
  unfold present Settings.targetsIn Settings.style
  dsimp only
  by_cases hquiet : settings.quiet = true
  · rw [if_pos hquiet]
    exact .inl ⟨.inl hquiet, outcome.warn _, rfl, rfl⟩
  · rw [if_neg hquiet]
    split
    · rename_i fault hfault
      refine .inr ⟨?_, rfl⟩
      rw [hfault]
      simp [hquiet]
    · rename_i hfault
      exact .inl ⟨.inr hfault, (outcome.warn _).print _, rfl, rfl⟩

end LineCoverage.Command
