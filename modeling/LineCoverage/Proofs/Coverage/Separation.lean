import LineCoverage.Proofs.Coverage.Chunking
import LineCoverage.Report.Summary
import Mathlib.Data.List.Basic

/-!
# `LineCoverage.Proofs.Coverage.Separation`: the trace and the output around it

A trace comes mixed with the output of the program that is traced. Whether a
line belongs to the trace depends on what came before, since most records say
something in an open script only. So it is not plain that the lines of the trace
are still read as such when the others are gone, nor that the others are left
alone when the trace is gone.

`ingest_separates` proves both. The first rests on `processLine_of_unconsumed`:
a line that is not consumed leaves the reader as it was. The second rests on
headers being consumed in every state: where no line is a header no script is
ever open, and nothing is consumed.
-/

set_option autoImplicit false

namespace LineCoverage

open Text

variable {sources : Sources} {relocator : Option Relocator}

/-- The lines that belong to the trace. -/
def Intake.consumed (results : List LineResult) : List String :=
  (results.filter (·.consumed)).map (·.line)

/-- Of lines that are not consumed all are passed on. -/
theorem Intake.unconsumed_map (lines : List String) :
    unconsumed (lines.map (⟨·, false⟩)) = lines := by
  have hall : (lines.map fun line => (⟨line, false⟩ : LineResult)).filter (!·.consumed)
      = lines.map (⟨·, false⟩) := List.filter_eq_self.mpr (by simp)
  rw [unconsumed, hall, List.map_map]
  exact List.map_id lines

/-- The lines of a text in turn, each with whether it belongs to the trace. -/
def lineResults (sources : Sources) (relocator : Option Relocator) (text : String) :
    Except Fault (List LineResult) :=
  ((Reader.start relocator).processLines sources (linesOf text)).1

/-! ### Lines that are not consumed -/

namespace Reader

/-- A line that is not consumed leaves the reader as it was, and is no header. -/
theorem processLine_of_unconsumed {reader later : Reader} {line : String}
    (h : reader.processLine sources line = (.ok false, later)) :
    later = reader ∧ Record.isHeader line = false := by
  have hstep := reader.step_processLine sources line
  rw [h] at hstep
  cases hstep with
  | passed other idle => exact ⟨rfl, other⟩

/-- Without the lines that are not consumed, the others are consumed as before and leave the same
reader. -/
theorem processLines_consumed {reader later : Reader} {lines : List String}
    {results : List LineResult}
    (h : reader.processLines sources lines = (.ok results, later)) :
    reader.processLines sources (Intake.consumed results)
      = (.ok (results.filter (·.consumed)), later) := by
  induction lines generalizing reader results with
  | nil =>
      rw [processLines_nil] at h
      cases h
      rfl
  | cons line rest ih =>
      obtain ⟨consumed, mid, others, hline, hrest, rfl⟩ := processLines_cons_ok h
      have hothers := ih hrest
      cases consumed with
      | false =>
          obtain ⟨rfl, -⟩ := processLine_of_unconsumed hline
          exact hothers
      | true =>
          show reader.processLines sources (line :: Intake.consumed others)
            = (.ok (⟨line, true⟩ :: others.filter (·.consumed)), later)
          rw [processLines_cons, hline]
          simp only [hothers, Except.map]

/-- A line that is not consumed is no header. -/
theorem not_isHeader_of_mem_unconsumed {reader later : Reader} {lines : List String}
    {results : List LineResult}
    (h : reader.processLines sources lines = (.ok results, later)) {line : String}
    (hmem : line ∈ Intake.unconsumed results) : Record.isHeader line = false := by
  induction lines generalizing reader results with
  | nil =>
      rw [processLines_nil] at h
      cases h
      cases hmem
  | cons first rest ih =>
      obtain ⟨consumed, mid, others, hfirst, hrest, rfl⟩ := processLines_cons_ok h
      cases consumed with
      | true => exact ih hrest hmem
      | false =>
          rcases List.mem_cons.mp hmem with rfl | hlater
          · exact (processLine_of_unconsumed hfirst).2
          · exact ih hrest hlater

/-- Outside a script, lines without a header are not consumed. -/
theorem processLines_of_idle (sources : Sources) {reader : Reader}
    (hidle : reader.current = none) {lines : List String}
    (hlines : ∀ line ∈ lines, Record.isHeader line = false) :
    reader.processLines sources lines = (.ok (lines.map (⟨·, false⟩)), reader) := by
  induction lines with
  | nil => exact processLines_nil sources reader
  | cons line rest ih =>
      have hfirst : reader.processLine sources line = (.ok false, reader) :=
        processLine_of_idle reader line (hlines line List.mem_cons_self) hidle
      have hrest := ih fun other hmem => hlines other (List.mem_cons_of_mem _ hmem)
      rw [processLines_cons, hfirst]
      simp only [hrest, Except.map, List.map_cons]

end Reader

/-! ### Lines as a text again -/

/-- The lines of some results of a text can be printed and read again. -/
theorem linesOf_printed_of_sublist {results chosen : List LineResult} {text : String}
    (hlines : results.map (·.line) = linesOf text) (hchosen : chosen.Sublist results) :
    linesOf (Report.printed (chosen.map (·.line))) = chosen.map (·.line) := by
  refine linesOf_join_of_not_mem fun line hmem => ?_
  have hline : line ∈ linesOf text := by
    rw [← hlines]
    exact (hchosen.map _).subset hmem
  exact not_mem_of_mem_linesOf hline

/-- **The trace and the output around it do not mix.** A line that is not consumed leaves every
reader as it was. Of a trace that can be ingested, the lines that are consumed have the same
coverage on their own, and nothing is passed on; and the lines that are passed on have no coverage
on their own, and all of them are passed on again. -/
theorem ingest_separates (sources : Sources) (relocator : Option Relocator) (chunks : List String)
    {passed : List String} {found : Option Coverage}
    (h : ingest sources relocator chunks = ⟨passed, .ok found⟩) :
    (∀ (reader : Reader) (line : String),
      (reader.processLine sources line).1 = .ok false →
        (reader.processLine sources line).2 = reader) ∧
    ∃ results, lineResults sources relocator (String.join chunks) = .ok results ∧
      results.map (·.line) = linesOf (String.join chunks) ∧
      passed = Intake.unconsumed results ∧
      (∀ others, String.join others = Report.printed (Intake.consumed results) →
        ingest sources relocator others = ⟨[], .ok found⟩) ∧
      ∀ others, String.join others = Report.printed passed →
        ingest sources relocator others = ⟨passed, .ok none⟩ := by
  refine ⟨fun reader line hline => (Reader.processLine_of_unconsumed (Prod.ext hline rfl)).1, ?_⟩
  obtain ⟨results, reader, hread, rfl, rfl⟩ := ingest_eq_ok_iff.mp h
  have hlines := Reader.map_line_of_processLines hread
  refine ⟨results, by rw [lineResults, hread], hlines, rfl, ?_, ?_⟩
  · intro others hothers
    have hconsumed : linesOf (String.join others) = Intake.consumed results := by
      rw [hothers]
      exact linesOf_printed_of_sublist hlines List.filter_sublist
    refine ingest_eq_ok_iff.mpr ⟨results.filter (·.consumed), reader, ?_, ?_, rfl⟩
    · rw [hconsumed]
      exact Reader.processLines_consumed hread
    · simp [Intake.unconsumed, List.filter_filter]
  · intro others hothers
    have hpassed : linesOf (String.join others) = Intake.unconsumed results := by
      rw [hothers]
      exact linesOf_printed_of_sublist hlines List.filter_sublist
    -- No line is a header, so no script is ever open.
    have hidle : (Reader.start relocator).processLines sources (Intake.unconsumed results)
        = (.ok ((Intake.unconsumed results).map (⟨·, false⟩)), Reader.start relocator) :=
      Reader.processLines_of_idle sources rfl fun line =>
        Reader.not_isHeader_of_mem_unconsumed hread
    rw [← hpassed] at hidle
    refine ingest_eq_ok_iff.mpr ⟨_, _, hidle, ?_, rfl⟩
    rw [Intake.unconsumed_map, hpassed]

/-- A trace in which the program speaks before, within and behind a script. -/
theorem ingest_separates_interleaved :
    ∃ found consumed,
      ingest (fun _ => .ok "") (some .fresh)
          ["hello\n--- SCRIPT a.js:1 ---\nnoi", "se\n00000:  2  [1] op\nbye"]
        = ⟨["hello", "noise", "bye"], .ok (some found)⟩ ∧
      ingest (fun _ => .ok "") (some .fresh) [Report.printed consumed] = ⟨[], .ok (some found)⟩ ∧
      ingest (fun _ => .ok "") (some .fresh) ["hello\nnoise\nbye\n"]
        = ⟨["hello", "noise", "bye"], .ok none⟩ := by
  have hread : ((Reader.start (some .fresh)).processLines (fun _ => .ok "")
      (linesOf "hello\n--- SCRIPT a.js:1 ---\nnoise\n00000:  2  [1] op\nbye")).1
      = .ok [⟨"hello", false⟩, ⟨"--- SCRIPT a.js:1 ---", true⟩, ⟨"noise", false⟩,
          ⟨"00000:  2  [1] op", true⟩, ⟨"bye", false⟩] := by
    rfl
  have htrace := (isBatch_join (fun _ => .ok "") (some .fresh)
    ["hello\n--- SCRIPT a.js:1 ---\nnoi", "se\n00000:  2  [1] op\nbye"]).complete _ _
      (Prod.ext hread rfl)
  obtain ⟨-, results, -, -, -, hconsumed, hpassed⟩ := ingest_separates _ _ _ htrace
  exact ⟨_, Intake.consumed results, htrace,
    hconsumed _ (by simp [String.join_cons, String.join_nil]), hpassed _ (by decide)⟩

end LineCoverage
