import LineCoverage.Proofs.Report.Agreement
import LineCoverage.Proofs.Report.Page
import LineCoverage.Proofs.Text.Characters
import LineCoverage.Proofs.Text.Lines

/-!
# `LineCoverage.Proofs.Report.Color`: colors change nothing but color

A report in color goes to a terminal, and the same report without goes into a
file. `uncolored` deletes from a text the four sequences that set a color or
reset it, knowing nothing of where they come from, and what is left of the one
report is the other.

The two reports are compared line by line. `Tinted` is what the two texts of a
line have to do with one another: they are the same, or the second has one part
in a color. `tinted_lines` goes through the forms of a report, and from there on
nothing has to be known about reports: `uncolored_printed` deletes the colors
from the lines one by one, and `tidy_of_mem_linesOf` finds each color reset where
its line ends. A name may have line feeds, but then it comes before the color.
-/

set_option autoImplicit false

namespace LineCoverage

open Report Text

/-! ### Deleting colors -/

/-- A text without the sequences that set a color and reset it. -/
def uncolored : List Char → List Char
  | '\x1b' :: '[' :: '3' :: '1' :: 'm' :: rest
  | '\x1b' :: '[' :: '3' :: '3' :: 'm' :: rest
  | '\x1b' :: '[' :: '3' :: '6' :: 'm' :: rest
  | '\x1b' :: '[' :: '0' :: 'm' :: rest => uncolored rest
  | c :: rest => c :: uncolored rest
  | [] => []

/-- Without an escape character there is no sequence. -/
theorem uncolored_append {left : List Char} (h : '\x1b' ∉ left) (rest : List Char) :
    uncolored (left ++ rest) = left ++ uncolored rest := by
  induction left with
  | nil => rfl
  | cons c left ih =>
      have hc : c ≠ '\x1b' := fun heq => h (heq ▸ List.mem_cons_self)
      have hleft : '\x1b' ∉ left := fun hmem => h (List.mem_cons_of_mem c hmem)
      have hstep : uncolored (c :: (left ++ rest)) = c :: uncolored (left ++ rest) := by
        rw [uncolored.eq_def]
        split <;> simp_all
      rw [List.cons_append, hstep, ih hleft, List.cons_append]

/-- What sets a color is deleted. -/
theorem uncolored_set (color : Color) (rest : List Char) :
    uncolored (color.set.toList ++ rest) = uncolored rest := by
  cases color <;> rfl

/-- What resets it is deleted. -/
theorem uncolored_reset (rest : List Char) : uncolored (Color.reset.toList ++ rest) = uncolored rest :=
  rfl

/-! ### Lines with and without colors -/

/-- A text that may stand in a color: it has no escape characters and is on one line. -/
def Bare (text : String) : Prop := ∀ c ∈ text.toList, c ≠ '\x1b' ∧ c ≠ '\n'

instance (text : String) : Decidable (Bare text) :=
  List.decidableBAll (fun c => c ≠ '\x1b' ∧ c ≠ '\n') text.toList

/-- A bare text does not set a color. -/
theorem Bare.not_mem {text : String} (h : Bare text) : '\x1b' ∉ text.toList :=
  fun hmem => (h _ hmem).1 rfl

/-- Two bare texts, one after the other. -/
@[simp] theorem bare_append {left right : String} :
    Bare (left ++ right) ↔ Bare left ∧ Bare right := by
  unfold Bare
  rw [String.toList_append, List.forall_mem_append]

/-- A digit is neither. -/
theorem ne_of_isDigit {c : Char} (h : c.isDigit = true) : c ≠ '\x1b' ∧ c ≠ '\n' := by
  constructor <;> rintro rfl <;> exact absurd h (by decide)

/-- A number is bare. -/
theorem bare_write {n : Int} {text : String} (h : Numeral.write n = .ok text) : Bare text := by
  obtain ⟨-, rfl⟩ := (Numeral.write_eq_ok_iff n text).mp h
  intro c hc
  rcases mem_intText hc with hdigit | rfl
  · exact ne_of_isDigit hdigit
  · decide

/-- Some numbers are bare. -/
theorem bare_of_mapM_write {values : List Int} {texts : List String}
    (h : values.mapM Numeral.write = .ok texts) : ∀ text ∈ texts, Bare text := by
  have hwritten := Page.forall₂_of_mapM h
  clear h
  induction hwritten with
  | nil => simp
  | cons hnumber _ ih => exact List.forall_mem_cons.mpr ⟨bare_write hnumber, ih⟩

/-- A percentage is bare. -/
theorem bare_percentText {tally : Tally} {count : Int} {text : String}
    (h : Report.percentText tally count = .ok text) : Bare text := by
  have hmarks : Bare "-.n/a" := by decide
  have hunit : Bare "%" := by decide
  intro c hc
  rcases Tally.mem_percentText h hc with hdigit | hmem | hmem
  · exact ne_of_isDigit hdigit
  · exact hmarks c hmem
  · exact hunit c hmem

/-- A text without colors, and what it may be with them. -/
inductive Tinted : String → String → Prop
  /-- Nothing of it is in a color. -/
  | plain {text : String} (h : '\x1b' ∉ text.toList) : Tinted text text
  /-- Its end is in a color. -/
  | painted {before inside : String} (color : Color) (hbefore : '\x1b' ∉ before.toList)
      (hinside : Bare inside) : Tinted (before ++ inside) (before ++ paint (some color) inside)

/-- The end of a text may be painted, or not. -/
theorem Tinted.paint {before inside : String} (hbefore : '\x1b' ∉ before.toList)
    (hinside : Bare inside) (color? : Option Color) :
    Tinted (before ++ inside) (before ++ LineCoverage.paint color? inside) := by
  cases color? with
  | none =>
      refine .plain ?_
      rw [String.toList_append, List.mem_append]
      exact fun hmem => hmem.elim hbefore hinside.not_mem
  | some color => exact .painted color hbefore hinside

/-- Without its colors a text is what it would have been. -/
theorem Tinted.uncolored_append {text colored : String} (h : Tinted text colored)
    (rest : List Char) : uncolored (colored.toList ++ rest) = text.toList ++ uncolored rest := by
  cases h with
  | plain h => exact LineCoverage.uncolored_append h rest
  | @painted before inside color hbefore hinside =>
      unfold LineCoverage.paint
      simp only [String.toList_append, List.append_assoc]
      rw [LineCoverage.uncolored_append hbefore, uncolored_set,
        LineCoverage.uncolored_append hinside.not_mem, uncolored_reset]

/-- A line of a report without colors, and with them. -/
inductive TintedLine : Except Fault String → Except Fault String → Prop
  | error (fault : Fault) : TintedLine (.error fault) (.error fault)
  | ok {text colored : String} (h : Tinted text colored) : TintedLine (.ok text) (.ok colored)

/-! ### The lines of a report -/

section Lines

variable {name : String}

/-- A line with a number. -/
theorem TintedLine.map_write {change change' : String → String} (n : Int)
    (h : ∀ number, Bare number → Tinted (change number) (change' number)) :
    TintedLine ((Numeral.write n).map change) ((Numeral.write n).map change') := by
  cases hnumber : Numeral.write n with
  | error fault => exact .error fault
  | ok number => exact .ok (h number (bare_write hnumber))

/-- A line without colors. -/
theorem tintedLine_self {line : Except Fault String}
    (h : ∀ text, line = .ok text → '\x1b' ∉ text.toList) : TintedLine line line := by
  cases line with
  | error fault => exact .error fault
  | ok text => exact .ok (.plain (h text rfl))

/-- The line with a name and its percentage. -/
theorem tinted_shortLine (hname : '\x1b' ∉ name.toList) (tally : Tally) :
    TintedLine (shortLine name tally) (shortLine name tally) := by
  refine tintedLine_self fun text htext => ?_
  obtain ⟨percent, hpercent, rfl⟩ := shortLine_eq_ok htext
  have hbare := (bare_percentText hpercent).not_mem
  simp [hname, hbare]

/-- A character in a row of the table is one of the name, or else it is neither an escape character
nor a line feed. -/
theorem mem_rowOf {row : String} {tally : Tally} (h : rowOf name tally = .ok row) {c : Char}
    (hc : c ∈ row.toList) : c ∈ name.toList ∨ (c ≠ '\x1b' ∧ c ≠ '\n') := by
  obtain ⟨percent, counts, hpercent, hcounts, rfl⟩ := rowOf_eq_ok h
  have hspace : ' ' ≠ '\x1b' ∧ ' ' ≠ '\n' := by decide
  -- What stands in a column is a character of its text, or one of the spaces before it.
  have hfield : ∀ {width : Int} {text : String}, Bare text → c ∈ (field width text).toList →
      c ≠ '\x1b' ∧ c ≠ '\n' := by
    intro width text htext hmem
    rcases mem_field hmem with rfl | hin
    · exact hspace
    · exact htext c hin
  rcases mem_intercalate hc with hseparator | ⟨column, hcolumn, hin⟩
  · obtain rfl := List.mem_singleton.mp hseparator
    exact .inr hspace
  · simp only [List.mem_cons, List.mem_map] at hcolumn
    rcases hcolumn with rfl | rfl | ⟨count, hcount, rfl⟩
    · exact .inr (hfield (bare_percentText hpercent) hin)
    · rcases mem_field hin with rfl | hname
      · exact .inr hspace
      · exact .inl hname
    · exact .inr (hfield (bare_of_mapM_write hcounts count hcount) hin)

/-- A row of the table. -/
theorem tinted_rowOf (hname : '\x1b' ∉ name.toList) (tally : Tally) :
    TintedLine (rowOf name tally) (rowOf name tally) := by
  refine tintedLine_self fun row hrow hmem => ?_
  rcases mem_rowOf hrow hmem with hin | ⟨hne, -⟩
  · exact hname hin
  · exact hne rfl

/-- The label of a line of a block has no color. -/
theorem not_mem_label {label : String} (h : '\x1b' ∉ label.toList) :
    '\x1b' ∉ ("\t" ++ (labelField label ++ ": ")).toList := by
  have hfield : '\x1b' ∉ (labelField label).toList := by
    rw [labelField, String.toList_ofList]
    intro hmem
    rcases mem_justifyRight hmem with hspace | hin
    · exact absurd hspace (by decide)
    · exact h hin
  simp [hfield]

/-- A line of a block with a count. -/
theorem tinted_countLine {label : String} (hlabel : '\x1b' ∉ label.toList) (count : Int)
    (tally : Tally) (verdict : Option Verdict) :
    TintedLine ((countLine label count tally verdict false).map ("\t" ++ ·))
      ((countLine label count tally verdict true).map ("\t" ++ ·)) := by
  unfold countLine
  cases hnumber : Numeral.write count with
  | error fault => exact .error fault
  | ok number =>
      cases hpercent : Report.percentText tally count with
      | error fault => exact .error fault
      | ok percent =>
          have hinside : Bare (number ++ " (" ++ percent ++ ")") := by
            have hopen : Bare " (" := by decide
            have hclose : Bare ")" := by decide
            simp [bare_write hnumber, bare_percentText hpercent, hopen, hclose]
          -- Whether the count is above zero decides on its color, in both reports alike.
          have hpainted := Tinted.paint (not_mem_label hlabel) hinside
            (if 0 < count then verdict.bind Verdict.color? else none)
          have hjoin : ∀ text, "\t" ++ (labelField label ++ ": ") ++ text
              = "\t" ++ (labelField label ++ ": " ++ text) := by
            simp [String.append_assoc]
          rw [hjoin, hjoin] at hpainted
          refine .ok ?_
          simp only [Bool.false_and, Bool.true_and, decide_eq_true_eq, Bool.false_eq_true, if_false]
          exact hpainted

/-- The line of a block with the number of executable lines. -/
theorem tinted_totalCountLine (tally : Tally) :
    TintedLine ((totalCountLine tally).map ("\t" ++ ·)) ((totalCountLine tally).map ("\t" ++ ·)) := by
  unfold totalCountLine
  cases hnumber : Numeral.write tally.lines with
  | error fault => exact .error fault
  | ok number =>
      have hlabel : '\x1b' ∉ ("\t" ++ (labelField "significant lines" ++ ": ")).toList :=
        not_mem_label (by decide)
      have hplain := Tinted.paint hlabel (bare_write hnumber) none
      rw [String.append_assoc] at hplain
      exact .ok hplain

/-- The lines of a block. -/
theorem tinted_blockLines (hname : '\x1b' ∉ name.toList) (tally : Tally) :
    List.Forall₂ TintedLine (blockLines name tally false) (blockLines name tally true) :=
  .cons (tinted_shortLine hname tally)
    (.cons (tinted_totalCountLine tally)
      (.cons (tinted_countLine (by decide) _ tally none)
        (.cons (tinted_countLine (by decide) _ tally (some .partlyCovered))
          (.cons (tinted_countLine (by decide) _ tally (some .uncovered))
            (.cons (tinted_countLine (by decide) _ tally (some .dead)) .nil)))))

/-- A finding. -/
theorem tinted_findingLine {file : SourceFile} (hname : '\x1b' ∉ file.name.toList)
    (finding : Finding) :
    TintedLine (findingLine file false finding) (findingLine file true finding) := by
  refine .map_write _ fun number hnumber => ?_
  have hbefore : '\x1b' ∉ (file.name ++ ":" ++ number ++ ": ").toList := by
    simp [hname, hnumber.not_mem]
  have hmessage : Bare (finding.verdict.finding?.getD "") := by
    cases finding.verdict <;> decide
  exact Tinted.paint hbefore hmessage finding.verdict.color?

end Lines

/-- The names of a target, its own and that of its file, have no escape characters. -/
def Target.Unescaped (target : Target) : Prop :=
  '\x1b' ∉ target.name.toList ∧ '\x1b' ∉ target.file.name.toList

/-- The lines on a target. -/
theorem tinted_targetLines (style : ReportStyle) {target : Target}
    (h : target.Unescaped) :
    List.Forall₂ TintedLine (targetLines { style with color := false } target)
      (targetLines { style with color := true } target) := by
  unfold targetLines
  dsimp only
  split
  · exact .cons (tinted_rowOf h.1 _) .nil
  split
  · exact .cons (tinted_shortLine h.1 _) .nil
  · refine List.rel_append (tinted_blockLines h.1 _) ?_
    split
    · rw [List.forall₂_map_left_iff, List.forall₂_map_right_iff, List.forall₂_same]
      exact fun finding _ => tinted_findingLine h.2 finding
    · exact .nil

/-- The lines of a report. -/
theorem tinted_lines (style : ReportStyle) {targets : List Target}
    (h : ∀ target ∈ targets, target.Unescaped) :
    List.Forall₂ TintedLine (Report.lines { style with color := false } targets)
      (Report.lines { style with color := true } targets) := by
  -- The heading and the totals have no names from outside, and no colors.
  have hheading : ∀ text ∈ compactHeading, '\x1b' ∉ text.toList := by decide
  have htargets : List.Forall₂ TintedLine
      (targets.flatMap (targetLines { style with color := false }))
      (targets.flatMap (targetLines { style with color := true })) := by
    induction targets with
    | nil => exact .nil
    | cons target rest ih =>
        obtain ⟨htarget, hrest⟩ := List.forall_mem_cons.mp h
        exact List.rel_append (tinted_targetLines style htarget) (ih hrest)
  have htotal : TintedLine (totalLine style (totals targets)) (totalLine style (totals targets)) := by
    unfold totalLine
    split
    · exact tinted_rowOf (by decide) _
    · exact tinted_shortLine (by decide) _
  unfold Report.lines
  dsimp only
  refine List.rel_append (List.rel_append ?_ htargets) (.cons htotal .nil)
  rw [List.forall₂_map_left_iff, List.forall₂_map_right_iff, List.forall₂_same]
  intro text htext
  split at htext
  · exact .ok (.plain (hheading text htext))
  · exact absurd htext List.not_mem_nil

/-! ### What is printed -/

section Printed

variable {lines colored : List (Except Fault String)}

/-- The first fault is the same. -/
theorem fault?_eq_of_tinted (h : List.Forall₂ TintedLine lines colored) :
    fault? lines = fault? colored := by
  induction h with
  | nil => rfl
  | cons hline _ ih =>
      cases hline with
      | error fault => rfl
      | ok _ => exact ih

/-- The texts before it go together. -/
theorem tinted_written (h : List.Forall₂ TintedLine lines colored) :
    List.Forall₂ Tinted (written lines) (written colored) := by
  induction h with
  | nil => exact .nil
  | cons hline _ ih =>
      cases hline with
      | error fault => exact .nil
      | ok htinted => exact .cons htinted ih

variable {texts painted : List String}

/-- Deleting the colors from what is printed leaves what is printed without them. -/
theorem uncolored_printed (h : List.Forall₂ Tinted texts painted) :
    uncolored (printed painted).toList = (printed texts).toList := by
  have hprinted : ∀ (text : String) (rest : List String),
      (printed (text :: rest)).toList = text.toList ++ '\n' :: (printed rest).toList := by
    intro text rest
    simp [printed]
  induction h with
  | nil => rfl
  | cons htinted _ ih =>
      -- The line feed belongs to no sequence, so each line is done for itself.
      have hbreak : ∀ rest : List Char, uncolored ('\n' :: rest) = '\n' :: uncolored rest :=
        uncolored_append (show '\x1b' ∉ ['\n'] by decide)
      rw [hprinted, hprinted, htinted.uncolored_append, hbreak, ih]

/-- A line of a text on which a color is set once at most, and reset at the end. -/
def Tidy (line : String) : Prop :=
  '\x1b' ∉ line.toList ∨
    ∃ (before inside : String) (color : Color),
      line = before ++ color.set ++ inside ++ Color.reset ∧
        '\x1b' ∉ before.toList ∧ '\x1b' ∉ inside.toList

/-- The lines of a text with colors are tidy. -/
theorem Tinted.tidy {text colored : String} (h : Tinted text colored) :
    ∀ line ∈ Text.lines colored, Tidy line := by
  cases h with
  | plain h => exact fun line hline => .inl fun hmem => h (mem_of_mem_lines hline _ hmem).1
  | @painted before inside color hbefore hinside =>
      -- The last line of what stands before is the one that the color is on.
      have hpieces : ∀ piece ∈ Text.lines before, '\x1b' ∉ piece.toList :=
        fun piece hpiece hmem => hbefore (mem_of_mem_lines hpiece _ hmem).1
      rw [← completeLines_append_unfinished] at hpieces
      have hlast : Text.lines (unfinished before ++ LineCoverage.paint (some color) inside)
          = [unfinished before ++ LineCoverage.paint (some color) inside] := by
        have hkept : '\n' ∉ (unfinished before).toList := by
          have hmem : unfinished before ∈ Text.lines before := by
            rw [← completeLines_append_unfinished before]
            exact List.mem_append_right _ (List.mem_singleton_self _)
          exact not_mem_of_mem_lines hmem
        have hset : '\n' ∉ color.set.toList := by
          cases color <;> decide
        have hinner : '\n' ∉ inside.toList := fun hmem => (hinside _ hmem).2 rfl
        have hreset : '\n' ∉ Color.reset.toList := by decide
        refine lines_of_not_mem ?_
        simp [LineCoverage.paint, hkept, hset, hinner, hreset]
      rw [lines_append, hlast]
      intro line hline
      rcases List.mem_append.mp hline with hcomplete | hpainted
      · exact .inl (hpieces line (List.mem_append_left _ hcomplete))
      · obtain rfl := List.mem_singleton.mp hpainted
        refine .inr ⟨unfinished before, inside, color, ?_,
          hpieces _ (List.mem_append_right _ (List.mem_singleton_self _)), hinside.not_mem⟩
        simp [LineCoverage.paint, String.append_assoc]

/-- So are the lines of what is printed. -/
theorem tidy_of_mem_linesOf (h : List.Forall₂ Tinted texts painted) :
    ∀ line ∈ linesOf (printed painted), Tidy line := by
  rw [show linesOf (printed painted) = painted.flatMap Text.lines from linesOf_join painted]
  induction h with
  | nil => simp
  | cons htinted _ ih =>
      rw [List.flatMap_cons, List.forall_mem_append]
      exact ⟨htinted.tidy, ih⟩

end Printed

/-! ### The whole report -/

/-- There are totals unless a number is too long to be written. -/
theorem Report.result_eq (style : ReportStyle) (targets : List Target) :
    Report.result style targets
      = if ∃ n ∈ numbers style targets, Numeral.firstTooLong ≤ n.natAbs
          then .error .numberTooLongToWrite
          else .ok (totals targets) := by
  unfold Report.result
  rw [fault?_lines, fault?_write]
  by_cases hlong : ∃ n ∈ numbers style targets, Numeral.firstTooLong ≤ n.natAbs
  · rw [if_pos hlong, if_pos hlong]
  · rw [if_neg hlong, if_neg hlong]

/-- **Colors change nothing but color.** Where the names of the targets have no escape characters,
a report in color is the same report: it gives back the same totals, or fails for the same number,
one that is too long to be written, which is the only way in which either can fail. Deleting the
sequences that set and reset colors from what it prints gives what is printed without colors, also
before a failure. And every color is reset on the line on which it is set. -/
theorem colors_change_nothing_else (style : ReportStyle) {targets : List Target}
    (h : ∀ target ∈ targets, target.Unescaped) :
    uncolored (printed (written (Report.lines { style with color := true } targets))).toList
      = (printed (written (Report.lines { style with color := false } targets))).toList ∧
    Report.result { style with color := true } targets
      = Report.result { style with color := false } targets ∧
    Report.result { style with color := false } targets
      = (if ∃ n ∈ numbers style targets, Numeral.firstTooLong ≤ n.natAbs
          then .error .numberTooLongToWrite
          else .ok (totals targets)) ∧
    ∀ line ∈ linesOf (printed (written (Report.lines { style with color := true } targets))),
      Tidy line := by
  have htinted := tinted_lines style h
  have hwritten := tinted_written htinted
  have hresult : Report.result { style with color := true } targets
      = Report.result { style with color := false } targets := by
    unfold Report.result
    rw [fault?_eq_of_tinted htinted]
  exact ⟨uncolored_printed hwritten, hresult, Report.result_eq { style with color := false } targets,
    tidy_of_mem_linesOf hwritten⟩

/-- A file with one line, which is listed in its color. -/
theorem colors_change_nothing_else_listed :
    let targets : List Target := [⟨"v.js", .cold "v.js" 3⟩]
    (∀ target ∈ targets, target.Unescaped) ∧
    uncolored (printed (written (Report.lines ⟨false, false, true, true⟩ targets))).toList
      = (printed (written (Report.lines ⟨false, false, true, false⟩ targets))).toList ∧
    findingLine (.cold "v.js" 3) true ⟨3, .uncovered⟩ = .ok "v.js:3: \x1b[31muncovered\x1b[0m" ∧
    ∀ line ∈ linesOf (printed (written (Report.lines ⟨false, false, true, true⟩ targets))),
      Tidy line := by
  intro targets
  have hnames : ∀ target ∈ targets, target.Unescaped :=
    List.forall_mem_singleton.mpr ⟨by decide, by decide⟩
  obtain ⟨hprinted, -, -, htidy⟩ :=
    colors_change_nothing_else ⟨false, false, true, false⟩ hnames
  exact ⟨hnames, hprinted, by decide +kernel, htidy⟩

/-- A line that is too far away cannot be listed in color either, although no name has an escape
character. -/
theorem colored_result_of_far_line :
    (⟨"v.js", .cold "v.js" Numeral.firstTooLong⟩ : Target).Unescaped ∧
    Report.result ⟨false, false, true, true⟩ [⟨"v.js", .cold "v.js" Numeral.firstTooLong⟩]
      = .error .numberTooLongToWrite ∧
    ¬ ∀ style targets, (∀ target ∈ targets, target.Unescaped) →
      ∃ tally, Report.result style targets = .ok tally := by
  have hnames : (⟨"v.js", .cold "v.js" Numeral.firstTooLong⟩ : Target).Unescaped :=
    ⟨by decide, by decide⟩
  have hfound : (⟨Numeral.firstTooLong, .uncovered⟩ : Finding)
      ∈ findings (.cold "v.js" Numeral.firstTooLong) :=
    mem_findings_iff.mpr ⟨SourceFile.verdict_cold _ _, by decide⟩
  have hresult :
      Report.result ⟨false, false, true, true⟩ [⟨"v.js", .cold "v.js" Numeral.firstTooLong⟩]
        = .error .numberTooLongToWrite :=
    result_of_far_finding true List.mem_cons_self hfound (Int.natAbs_natCast _).ge
  refine ⟨hnames, hresult, fun hall => ?_⟩
  obtain ⟨tally, htally⟩ := hall _ _ (List.forall_mem_singleton.mpr hnames)
  rw [htally] at hresult
  cases hresult

end LineCoverage
