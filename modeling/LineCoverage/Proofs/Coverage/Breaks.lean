import LineCoverage.Proofs.Coverage.Chunking
import LineCoverage.Proofs.Text.Lines
import LineCoverage.Proofs.Trace.Record

/-!
# `LineCoverage.Proofs.Coverage.Breaks`: the line breaks of other systems

A file is read with every line break as a line feed, and the standard input may
be read as it is. A trace from another system has a carriage return before each
line feed then. These belong to the line break all the same
(`Record.lineText`), so the coverage is the same either way, as long as no
carriage return stands inside a line: `outcome_ingest_unified`.

That has two halves. What comes of some lines depends on the records on them and
on nothing else (`Reader.reach_congr`), and the records are the same
(`records_unified`). The lines themselves are not: where several carriage
returns stand before a line feed, there is an empty line for each but one.
-/

set_option autoImplicit false

namespace LineCoverage

open Text

/-- The records on some lines. -/
def Record.onLines (lines : List String) : List Record := lines.filterMap ofLine?

namespace Reader

/-! ### What comes of some lines -/

variable {sources : Sources}

/-- The reader behind some lines or behind the first that fails, and how that fails. -/
def reach (sources : Sources) (reader : Reader) (lines : List String) :
    Except Fault Unit × Reader :=
  ((reader.processLines sources lines).1.map fun _ => (), (reader.processLines sources lines).2)

/-- A line, and then the others with what it left, unless it fails. -/
theorem reach_cons (reader : Reader) (line : String) (rest : List String) :
    reader.reach sources (line :: rest)
      = match reader.processLine sources line with
        | (.error fault, later) => (.error fault, later)
        | (.ok _, later) => later.reach sources rest := by
  unfold reach
  rw [processLines_cons]
  rcases reader.processLine sources line with ⟨fault | consumed, later⟩
  · rfl
  · dsimp only
    cases (processLines sources later rest).1 <;> rfl

/-- Lines without records come to nothing. -/
theorem reach_append_of_none (reader : Reader) {before : List String}
    (h : ∀ line ∈ before, Record.ofLine? line = none) (rest : List String) :
    reader.reach sources (before ++ rest) = reader.reach sources rest := by
  induction before with
  | nil => rfl
  | cons line before ih =>
      obtain ⟨hline, hbefore⟩ := List.forall_mem_cons.mp h
      rw [List.cons_append, reach_cons, processLine_of_none reader hline]
      exact ih hbefore

/-- A line is read for its record. -/
theorem processLine_congr (reader : Reader) {line other : String}
    (h : Record.ofLine? line = Record.ofLine? other) :
    reader.processLine sources line = reader.processLine sources other := by
  unfold processLine
  rw [h]

/-- **What comes of some lines depends on their records**, and on nothing else. -/
theorem reach_congr (reader : Reader) {lines others : List String}
    (h : Record.onLines lines = Record.onLines others) :
    reader.reach sources lines = reader.reach sources others := by
  induction lines generalizing reader others with
  | nil =>
      have hnone := List.filterMap_eq_nil_iff.mp h.symm
      have hothers : reader.reach sources (others ++ []) = reader.reach sources [] :=
        reader.reach_append_of_none hnone []
      rw [List.append_nil] at hothers
      exact hothers.symm
  | cons line rest ih =>
      unfold Record.onLines at h
      cases hrecord : Record.ofLine? line with
      | none =>
          rw [List.filterMap_cons_none hrecord] at h
          rw [reach_cons, processLine_of_none reader hrecord]
          exact ih reader h
      | some record =>
          -- The other lines have the record, too, behind some without any.
          rw [List.filterMap_cons_some hrecord] at h
          obtain ⟨before, other, after, rfl, hbefore, hother, hafter⟩ :=
            List.filterMap_eq_cons_iff.mp h.symm
          rw [reader.reach_append_of_none hbefore, reach_cons, reach_cons,
            reader.processLine_congr (hrecord.trans hother.symm)]
          rcases reader.processLine sources other with ⟨fault | consumed, later⟩
          · rfl
          · exact ih later hafter.symm

end Reader

/-- Two texts of which the same comes have the same outcome. -/
theorem IsBatch.outcome_of_reach {sources : Sources} {relocator : Option Relocator}
    {text other : String} {left right : Ingested} (hleft : IsBatch sources relocator text left)
    (hright : IsBatch sources relocator other right)
    (h : (Reader.start relocator).reach sources (linesOf text)
      = (Reader.start relocator).reach sources (linesOf other)) : left.outcome = right.outcome := by
  unfold Reader.reach at h
  rcases htext : (Reader.start relocator).processLines sources (linesOf text)
    with ⟨fault | results, reader⟩ <;>
  rcases hother : (Reader.start relocator).processLines sources (linesOf other)
    with ⟨failure | others, later⟩ <;>
  rw [htext, hother] at h <;> cases h
  · rw [(hleft.fault fault reader htext).1, (hright.fault fault reader hother).1]
  · -- The reader shows whether there was a header.
    have hheader := Reader.isEmpty_close_of_processLines htext
    rw [Reader.isEmpty_close_of_processLines hother, Bool.not_inj_iff] at hheader
    rw [hleft.complete results reader htext, hright.complete others reader hother, hheader]

/-! ### Line breaks -/

namespace Text

/-- A text with the line feed as its only line break, from the front. A line feed that stands behind
a carriage return, or is the first one and is told to, adds nothing. -/
def unifiedFrom (afterReturn : Bool) : List Char → List Char
  | [] => []
  | c :: rest =>
    if c = '\r' then '\n' :: unifiedFrom true rest
    else if c = '\n' && afterReturn then unifiedFrom false rest
    else c :: unifiedFrom false rest

/-- A scan for breaks does the same. -/
theorem unifyBreaks_eq (text : List Char) : unifyBreaks text = unifiedFrom false text := by
  have hscan : ∀ (rest : List Char) (scan : BreakScan),
      (rest.foldl BreakScan.step scan).done.reverse
        = scan.done.reverse ++ unifiedFrom scan.afterReturn rest := by
    intro rest
    induction rest with
    | nil => intro scan; exact (List.append_nil _).symm
    | cons c rest ih =>
        intro scan
        rw [List.foldl_cons, ih, unifiedFrom, BreakScan.step]
        split
        · simp
        · split <;> simp
  exact hscan text ⟨[], false⟩

/-- Characters that break no line stay. -/
theorem unifiedFrom_append {front : List Char} (h : ∀ c ∈ front, c ≠ '\r' ∧ c ≠ '\n')
    (rest : List Char) : unifiedFrom false (front ++ rest) = front ++ unifiedFrom false rest := by
  induction front with
  | nil => rfl
  | cons c front ih =>
      obtain ⟨hc, hfront⟩ := List.forall_mem_cons.mp h
      rw [List.cons_append, unifiedFrom, if_neg hc.1, if_neg (by simp [hc.2]), ih hfront]
      rfl

/-- Carriage returns at the end of a text are line feeds. -/
theorem eq_break_of_mem_unifiedFrom {returns : List Char} (h : ∀ c ∈ returns, c = '\r')
    (afterReturn : Bool) : ∀ c ∈ unifiedFrom afterReturn returns, c = '\n' := by
  induction returns generalizing afterReturn with
  | nil => exact fun _ hmem => absurd hmem List.not_mem_nil
  | cons c returns ih =>
      obtain ⟨rfl, hreturns⟩ := List.forall_mem_cons.mp h
      rw [unifiedFrom, if_pos rfl]
      exact List.forall_mem_cons.mpr ⟨rfl, ih hreturns true⟩

/-- Carriage returns and a line feed are line feeds, and none of them reaches into the next line. -/
theorem exists_unifiedFrom_returns {returns : List Char} (h : ∀ c ∈ returns, c = '\r')
    (afterReturn : Bool) (rest : List Char) :
    ∃ breaks, (∀ c ∈ breaks, c = '\n') ∧ (afterReturn = false → breaks ≠ []) ∧
      unifiedFrom afterReturn (returns ++ '\n' :: rest) = breaks ++ unifiedFrom false rest := by
  induction returns generalizing afterReturn with
  | nil =>
      cases afterReturn with
      | false => exact ⟨['\n'], by simp, by simp, by simp [unifiedFrom]⟩
      | true => exact ⟨[], by simp, by simp, by simp [unifiedFrom]⟩
  | cons c returns ih =>
      obtain ⟨rfl, hreturns⟩ := List.forall_mem_cons.mp h
      obtain ⟨breaks, hbreaks, -, heq⟩ := ih hreturns true
      refine ⟨'\n' :: breaks, List.forall_mem_cons.mpr ⟨rfl, hbreaks⟩, by simp, ?_⟩
      rw [List.cons_append, unifiedFrom, if_pos rfl, heq]
      rfl

end Text

/-- The records between the line feeds of a text. -/
def Record.between (text : List Char) : List Record :=
  (text.splitOn '\n').filterMap fun piece => ofText? (dropTrailing (· == '\r') piece)

namespace Record

/-- An empty line has no record. -/
theorem ofText?_nil : ofText? (dropTrailing (· == '\r') []) = none := by decide

/-- The lines of a text have the records between its line feeds. An empty piece at the end does not
matter. -/
theorem onLines_linesOf (text : String) : onLines (linesOf text) = between text.toList := by
  have hlines : onLines (lines text) = between text.toList := by
    rw [onLines, lines, List.filterMap_map, between]
    simp only [Function.comp_def, ofLine?, String.toList_ofList]
  rw [← hlines, ← completeLines_append_unfinished, linesOf_eq]
  by_cases hempty : unfinished text = ""
  · have hnone : ofLine? "" = none := by decide
    simp [onLines, hempty, hnone]
  · rw [if_neg hempty]

/-- A line feed between two texts. -/
theorem between_append_break (left right : List Char) :
    between (left ++ '\n' :: right) = between left ++ between right := by
  rw [between, List.splitOn_append_cons_self, List.filterMap_append]
  rfl

/-- Nothing is between line feeds. -/
theorem between_breaks {breaks : List Char} (h : ∀ c ∈ breaks, c = '\n') (rest : List Char) :
    between (breaks ++ rest) = between rest := by
  induction breaks with
  | nil => rfl
  | cons c breaks ih =>
      obtain ⟨rfl, hbreaks⟩ := List.forall_mem_cons.mp h
      have hempty : between [] = [] := by simp [between, ofText?_nil]
      rw [List.cons_append, ← List.nil_append ('\n' :: (breaks ++ rest)), between_append_break,
        hempty, ih hbreaks, List.nil_append]

/-- One line feed or more end a line. -/
theorem between_append_breaks {breaks : List Char} (h : ∀ c ∈ breaks, c = '\n') (hne : breaks ≠ [])
    (left rest : List Char) :
    between (left ++ (breaks ++ rest)) = between left ++ between rest := by
  cases breaks with
  | nil => exact absurd rfl hne
  | cons c breaks =>
      obtain ⟨rfl, hbreaks⟩ := List.forall_mem_cons.mp h
      rw [List.cons_append, between_append_break, between_breaks hbreaks]

/-- Carriage returns at the end of a line do not matter. -/
theorem between_append_returns {piece returns : List Char} (hpiece : '\n' ∉ piece)
    (hreturns : ∀ c ∈ returns, c = '\r') : between (piece ++ returns) = between piece := by
  have hall : '\n' ∉ piece ++ returns := by
    rw [List.mem_append, not_or]
    exact ⟨hpiece, fun hmem => absurd (hreturns _ hmem) (by decide)⟩
  have htrimmed : dropTrailing (· == '\r') (piece ++ returns) = dropTrailing (· == '\r') piece :=
    dropTrailing_append (fun c hc => beq_iff_eq.mpr (hreturns c hc)) piece
  unfold between
  rw [List.splitOn_eq_singleton hall, List.splitOn_eq_singleton hpiece]
  simp only [List.filterMap_cons, htrimmed]

/-- Line by line, the records are the same with every line break as a line feed. -/
theorem between_unifiedFrom {pieces : List (List Char)}
    (h : ∀ piece ∈ pieces, '\n' ∉ piece ∧ '\r' ∉ dropTrailing (· == '\r') piece) :
    between (unifiedFrom false (['\n'].intercalate pieces))
      = between (['\n'].intercalate pieces) := by
  -- A line is characters that break no line, and carriage returns behind them.
  have hsplit : ∀ piece : List Char, '\n' ∉ piece ∧ '\r' ∉ dropTrailing (· == '\r') piece →
      ∃ front returns, piece = front ++ returns ∧ (∀ c ∈ front, c ≠ '\r' ∧ c ≠ '\n') ∧
        ∀ c ∈ returns, c = '\r' := by
    rintro piece ⟨hfeed, hreturn⟩
    obtain ⟨returns, heq, hreturns⟩ := exists_dropTrailing_append (· == '\r') piece
    refine ⟨_, returns, heq, fun c hc => ⟨?_, ?_⟩, fun c hc => beq_iff_eq.mp (hreturns c hc)⟩
    · rintro rfl
      exact hreturn hc
    · rintro rfl
      exact hfeed (heq ▸ List.mem_append_left returns hc)
  induction pieces with
  | nil => rfl
  | cons piece rest ih =>
      obtain ⟨hpiece, hrest⟩ := List.forall_mem_cons.mp h
      obtain ⟨front, returns, rfl, hfront, hreturns⟩ := hsplit piece hpiece
      have hfeed : '\n' ∉ front := fun hmem => (hfront _ hmem).2 rfl
      cases rest with
      | nil =>
          rw [List.intercalate_singleton, unifiedFrom_append hfront,
            between_append_returns hfeed hreturns]
          have hbreaks := eq_break_of_mem_unifiedFrom hreturns false
          cases hnone : unifiedFrom false returns with
          | nil => rw [List.append_nil]
          | cons c breaks =>
              rw [hnone] at hbreaks
              have hmore := between_append_breaks hbreaks (List.cons_ne_nil c breaks) front []
              have hempty : between [] = [] := by simp [between, ofText?_nil]
              rwa [List.append_nil, hempty, List.append_nil] at hmore
      | cons second rest =>
          have hjoin : ['\n'].intercalate ((front ++ returns) :: second :: rest)
              = front ++ (returns ++ '\n' :: ['\n'].intercalate (second :: rest)) := by
            rw [List.intercalate_cons_cons]
            simp
          obtain ⟨breaks, hbreaks, hne, heq⟩ := exists_unifiedFrom_returns hreturns false
            (['\n'].intercalate (second :: rest))
          rw [hjoin, unifiedFrom_append hfront, heq, between_append_breaks hbreaks (hne rfl),
            ih hrest, ← List.append_assoc front, between_append_break,
            between_append_returns hfeed hreturns]

end Record

/-- No carriage return stands inside a line. At the end of a line it belongs to the line break. -/
def Text.ReturnsEndLines (text : String) : Prop :=
  ∀ line ∈ linesOf text, '\r' ∉ Record.lineText line

/-- **The records are the same with every line break as a line feed**, unless a carriage return
stands inside a line. -/
theorem Record.onLines_unified {text : String} (h : ReturnsEndLines text) :
    onLines (linesOf (unified text)) = onLines (linesOf text) := by
  have hpieces : ∀ piece ∈ (lines text).map String.toList,
      '\n' ∉ piece ∧ '\r' ∉ dropTrailing (· == '\r') piece := by
    intro piece hpiece
    obtain ⟨line, hline, rfl⟩ := List.mem_map.mp hpiece
    refine ⟨not_mem_of_mem_lines hline, ?_⟩
    rw [← completeLines_append_unfinished] at hline
    by_cases hmem : line ∈ linesOf text
    · exact h line hmem
    · -- Only an empty piece at the end is no line.
      have hempty : line = "" := by
        rw [linesOf_eq] at hmem
        by_cases hlast : unfinished text = ""
        · rw [if_pos hlast, List.append_nil] at hmem
          simpa [hmem, hlast] using hline
        · rw [if_neg hlast] at hmem
          exact absurd hline hmem
      rw [hempty]
      decide
  have hsame := between_unifiedFrom hpieces
  rw [intercalate_lines] at hsame
  rw [onLines_linesOf, onLines_linesOf, unified, String.toList_ofList, unifyBreaks_eq, hsame]

/-- **The line breaks of another system do not matter for the coverage.** If no carriage return
stands inside a line, the trace as it is has the outcome of the trace with line feeds only. -/
theorem outcome_ingest_unified (sources : Sources) (relocator : Option Relocator)
    {chunks others : List String} (h : ReturnsEndLines (String.join chunks))
    (hunified : String.join others = unified (String.join chunks)) :
    (ingest sources relocator others).outcome = (ingest sources relocator chunks).outcome := by
  refine (isBatch_join sources relocator others).outcome_of_reach
    (isBatch_join sources relocator chunks) ?_
  rw [hunified]
  exact Reader.reach_congr _ (Record.onLines_unified h)

end LineCoverage
