import LineCoverage.Proofs.Coverage.Chunking

/-!
# `LineCoverage.Proofs.Coverage.Passing`: which lines are passed on

Whether a line belongs to the trace is told from its record and from whether a
script is open, and that is told from the records before. The numbers on the
lines and the sources do not matter, so `foreignLines` lists the lines that do
not belong to a trace without reading it, and also of a trace that cannot be
read to its end.

`ingest_passed` says that these lines are passed on, all of them if the trace can
be read and the first ones otherwise. Both follow from `foreignLines_append`,
which goes through the lines that were read.
-/

set_option autoImplicit false

namespace LineCoverage

open Text

/-- Whether a script is open behind a line of the trace, which it may be before the line or not. A
line that does not belong to the trace gives no answer. -/
def Record.opens? (opened : Bool) : Option Record → Option Bool
  | some (.header _ _) => some true
  | some .ending => if opened then some false else none
  | some (.instruction _) => if opened then some true else none
  | some .furniture => if opened then some true else none
  | none => none

/-- The lines that do not belong to the trace, with a script open before them or not. -/
def foreignLines (opened : Bool) : List String → List String
  | [] => []
  | line :: rest =>
    match Record.opens? opened (Record.ofLine? line) with
    | some opened => foreignLines opened rest
    | none => line :: foreignLines opened rest

namespace Reader

variable {sources : Sources}

/-- A line that is read is foreign exactly if it is not consumed, and the reader shows whether a
script is open behind it. -/
theorem foreignLines_of_processLine {reader later : Reader} {line : String} {consumed : Bool}
    (h : reader.processLine sources line = (.ok consumed, later)) (rest : List String) :
    foreignLines reader.current.isSome (line :: rest)
      = Intake.unconsumed [⟨line, consumed⟩] ++ foreignLines later.current.isSome rest := by
  have hstep := reader.step_processLine sources line
  rw [h] at hstep
  rw [foreignLines]
  cases hstep with
  | header path number record =>
      rw [record]
      rfl
  | passed other idle =>
      have hforeign : Record.opens? later.current.isSome (Record.ofLine? line) = none := by
        rcases idle with hidle | hrecord
        · have hclosed : later.current = none := hidle
          rw [hclosed]
          rcases hrecord : Record.ofLine? line with _ | (⟨path, number⟩ | _ | columns | _)
          · rfl
          · simp [Record.isHeader, hrecord] at other
          · rfl
          · rfl
          · rfl
        · rw [hrecord]
          rfl
      rw [hforeign]
      rfl
  | ending script record opened =>
      rw [record, opened]
      rfl
  | furniture script record opened =>
      rw [record, opened]
      rfl
  | instruction columns script inst relocator record opened placed =>
      rw [record, opened]
      rfl

/-- Lines that were read, and more behind them. -/
theorem foreignLines_append {reader later : Reader} {lines : List String}
    {results : List LineResult} (h : reader.processLines sources lines = (.ok results, later))
    (more : List String) :
    foreignLines reader.current.isSome (lines ++ more)
      = Intake.unconsumed results ++ foreignLines later.current.isSome more := by
  induction lines generalizing reader results with
  | nil =>
      rw [processLines_nil] at h
      cases h
      rfl
  | cons line rest ih =>
      obtain ⟨consumed, mid, others, hline, hrest, rfl⟩ := processLines_cons_ok h
      rw [List.cons_append, foreignLines_of_processLine hline, ih hrest, ← List.append_assoc,
        ← Intake.unconsumed_append]
      rfl

end Reader

/-- **The lines that do not belong to the trace are passed on**: all of them if the trace can be
read, and some first ones otherwise. -/
theorem ingest_passed (sources : Sources) (relocator : Option Relocator) (chunks : List String) :
    (ingest sources relocator chunks).passed
        <+: foreignLines false (linesOf (String.join chunks)) ∧
    ∀ found, (ingest sources relocator chunks).outcome = .ok found →
      (ingest sources relocator chunks).passed
        = foreignLines false (linesOf (String.join chunks)) := by
  have hbatch := isBatch_join sources relocator chunks
  -- What is read of the trace, and nothing else, decides what is passed on.
  have hread : ∀ lines results reader more,
      (Reader.start relocator).processLines sources lines = (.ok results, reader) →
      foreignLines false (lines ++ more)
        = Intake.unconsumed results ++ foreignLines reader.current.isSome more :=
    fun lines results reader more hread => Reader.foreignLines_append hread more
  cases houtcome : (ingest sources relocator chunks).outcome with
  | ok coverage =>
      obtain ⟨results, reader, hlines, hpassed, -⟩ := hbatch.exists_of_ok houtcome
      have hall : (ingest sources relocator chunks).passed
          = foreignLines false (linesOf (String.join chunks)) := by
        have hforeign := hread _ _ _ [] hlines
        rw [List.append_nil, foreignLines, List.append_nil] at hforeign
        rw [hpassed, hforeign]
      exact ⟨hall ▸ List.prefix_refl _, fun _ _ => hall⟩
  | error fault =>
      refine ⟨?_, fun found hok => by cases hok⟩
      rcases hlines : (Reader.start relocator).processLines sources (linesOf (String.join chunks))
        with ⟨failure | results, reader⟩
      · obtain ⟨-, results, ⟨before, line, after, mid, later, hsplit, hbefore, -⟩, hpassed⟩ :=
          hbatch.fault failure reader hlines
        rw [hsplit, hread before results mid (line :: after) hbefore]
        exact hpassed.trans (List.prefix_append _ _)
      · rw [hbatch.complete results reader hlines] at houtcome
        cases houtcome

end LineCoverage
