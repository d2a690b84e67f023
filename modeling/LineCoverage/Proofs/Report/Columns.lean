import LineCoverage.Proofs.Report.Color
import LineCoverage.Proofs.Report.Percentages

/-!
# `LineCoverage.Proofs.Report.Columns`: the table can be read by columns

A table is read by the places of its columns: who looks for the number of
uncovered lines takes the seven characters from the place where that column
stands. `columns` reads a row in this way. It knows the widths and nothing of how
the row was written. `Aligned` says what it finds: as many characters in all as
the table is wide, and in each column one text, whole behind spaces, or only its
end where the text is too long (`ShowsEnd`).

No row can get out of place, because every text goes through a field
(`aligned_fields`). What is left to say is which texts are cut. A percentage
never is, since it is at most a hundred (`RowShows`). A name loses its front.
A count would have to go beyond seven digits.

`table_aligned` is about all that is printed. A table breaks off only before a
row with a count that is too long to be written, and since the counts are at most
the number of executable lines of all files together, that number decides
(`fault?_lines_compact_iff`). No files in this world have that many lines.
-/

set_option autoImplicit false

namespace LineCoverage

open Report Text

namespace Text

/-! ### Columns of a text -/

/-- What a column of some width has of a text: all of it, behind spaces, if there is room for it,
and otherwise its end. -/
structure ShowsEnd (width : Nat) (text column : String) : Prop where
  length : column.length = width
  whole : text.length ≤ width →
    column.toList = List.replicate (width - text.length) ' ' ++ text.toList
  ending : width < text.length → column.toList <:+ text.toList

/-- A field has the end of its text. -/
theorem showsEnd_field {width : Nat} (h : 0 < width) (text : String) :
    ShowsEnd width text (field width text) where
  length := by
    rw [field, String.length_ofList, length_fit width _ h]
  whole := by
    intro hfits
    rw [field, String.toList_ofList, fit_of_length_le h hfits, String.length_toList]
  ending := by
    intro hlong
    have hne : (width : Int) ≠ 0 := by omega
    have hpos : 0 < (width : Int) := by omega
    have hkept : (takeLast width text.toList).length = width := by
      rw [takeLast, List.length_drop, String.length_toList]
      omega
    -- What is kept fills the field, so that no space is put before it.
    rw [field, String.toList_ofList, fit, if_neg hne, if_pos hpos, Int.toNat_natCast,
      justifyRight, hkept, Nat.sub_self, List.replicate_zero, List.nil_append]
    exact List.drop_suffix _ _

/-- The columns of a text, as many characters each as it is wide, with one character between two of
them. -/
def cut : List Nat → List Char → List (List Char)
  | [], _ => []
  | width :: widths, text => text.take width :: cut widths (text.drop (width + 1))

section

variable {widths : List Nat} {columns : List String}

/-- Columns of these widths with a space between two of them are found again. -/
theorem cut_intercalate
    (h : List.Forall₂ (fun width column => column.length = width) widths columns) :
    cut widths (" ".intercalate columns).toList = columns.map String.toList := by
  induction h with
  | nil => rfl
  | @cons width column widths columns hwidth hrest ih =>
      subst hwidth
      rw [List.map_cons, cut, ← ih, ← String.length_toList]
      cases hrest with
      | nil => simp [cut]
      | cons _ _ =>
          -- The space behind the column is the one character that is left out.
          rw [String.intercalate_cons_cons, String.toList_append, String.toList_append,
            List.append_assoc, List.take_left, List.drop_length_add_append]
          rfl

/-- Together with a space behind each they are as long as they are wide, and one space more. -/
theorem length_intercalate
    (h : List.Forall₂ (fun width column => column.length = width) widths columns)
    (hne : columns ≠ []) :
    (" ".intercalate columns).length + 1 = (widths.map (· + 1)).sum := by
  induction h with
  | nil => exact absurd rfl hne
  | @cons width column widths columns hwidth hrest ih =>
      cases hrest with
      | nil => simp [hwidth]
      | cons _ _ =>
          have hlater := ih (List.cons_ne_nil _ _)
          rw [List.map_cons, List.sum_cons, ← hlater, String.intercalate_cons_cons,
            String.length_append, String.length_append, hwidth]
          show width + 1 + _ + 1 = _
          omega

end

end Text

namespace Report

/-! ### Columns of the table -/

/-- The widths of the columns of the table: the percentage, the name, and five counts. -/
def columnWidths : List Nat := [6, 32, 7, 7, 7, 7, 7]

/-- A row of the table, read by columns. -/
def columns (row : String) : List String := (cut columnWidths row.toList).map String.ofList

/-- A row of the table has one text in each of its columns, a space between two of them, and
nothing else. -/
structure Aligned (row : String) (texts : List String) : Prop where
  length : row.length = 79
  separated : row = " ".intercalate (columns row)
  columns : List.Forall₂ (fun cell column => ShowsEnd cell.1 cell.2 column)
    (columnWidths.zip texts) (columns row)

/-- Some texts, each in a field of its width. -/
def fields (cells : List (Nat × String)) : List String :=
  cells.map fun cell => field cell.1 cell.2

/-- Texts in the fields of the columns are aligned, whatever they are. -/
theorem aligned_fields {texts : List String} (h : texts.length = 7) :
    Aligned (" ".intercalate (fields (columnWidths.zip texts))) texts := by
  have hpositive : ∀ cell ∈ columnWidths.zip texts, 0 < cell.1 := by
    intro cell hcell
    have hall : ∀ width ∈ columnWidths, 0 < width := by decide
    exact hall cell.1 (List.of_mem_zip hcell).1
  have hcells : List.Forall₂ (fun cell column => ShowsEnd cell.1 cell.2 column)
      (columnWidths.zip texts) (fields (columnWidths.zip texts)) :=
    List.forall₂_map_right_iff.mpr (List.forall₂_same.mpr fun cell hcell =>
      showsEnd_field (hpositive cell hcell) cell.2)
  have hwidths : List.Forall₂ (fun width column => column.length = width) columnWidths
      (fields (columnWidths.zip texts)) := by
    have hfirst : (columnWidths.zip texts).map Prod.fst = columnWidths :=
      List.map_fst_zip h.ge
    rw [← hfirst, List.forall₂_map_left_iff, hfirst]
    exact hcells.imp fun _ _ hcell => hcell.length
  have hcolumns : columns (" ".intercalate (fields (columnWidths.zip texts)))
      = fields (columnWidths.zip texts) := by
    rw [columns, cut_intercalate hwidths, List.map_map]
    simp
  have hsome : fields (columnWidths.zip texts) ≠ [] := by
    intro hnone
    rw [hnone] at hwidths
    cases hwidths
  exact
    { length := by
        have hsum := length_intercalate hwidths hsome
        rw [show (columnWidths.map (· + 1)).sum = 80 by decide] at hsum
        omega
      separated := by rw [hcolumns]
      columns := by rwa [hcolumns] }

/-- **A row of the table is aligned.** -/
theorem aligned_tableRow (percent name : String) {counts : List String} (h : counts.length = 5) :
    Aligned (tableRow percent name counts) (percent :: name :: counts) := by
  have hrow : tableRow percent name counts
      = " ".intercalate (fields (columnWidths.zip (percent :: name :: counts))) := by
    match counts, h with
    | [_, _, _, _, _], _ =>
        simp only [tableRow, fields, columnWidths, percentWidth, nameWidth, countWidth,
          List.zip_cons_cons, List.zip_nil_left, List.map_cons, List.map_nil, Nat.cast_ofNat]
  rw [hrow]
  exact aligned_fields (by simp [h])

/-! ### Rows of tallies -/

/-- A row shows a tally under a name: the percentage of the covered lines, for which there is always
room, the name, the number of executable lines, and the counts that it is made of. -/
def RowShows (name : String) (tally : Tally) (row : String) : Prop :=
  ∃ percent, percentText tally tally.covered = .ok percent ∧ percent.length ≤ 6 ∧
    Aligned row (percent :: name :: (tally.lines :: tally.counts).map toString)

/-- The row of a tally shows it, if it can be written. -/
theorem rowShows_of_rowOf {name row : String} {tally : Tally} {lines : Nat}
    (htally : tally.Shows lines) (h : rowOf name tally = .ok row) : RowShows name tally row := by
  obtain ⟨percent, counts, hpercent, hcounts, rfl⟩ := rowOf_eq_ok h
  obtain ⟨text, htext, -, hfits, -⟩ := htally.covered
  obtain rfl : text = percent := Except.ok.inj (htext.symm.trans hpercent)
  obtain rfl := Page.eq_of_mapM_write hcounts
  exact ⟨text, hpercent, hfits, aligned_tableRow text name (by simp [Tally.counts])⟩

/-! ### The table -/

/-- What the rows of a table are about: the targets in order, and then all of them together. -/
def entries (targets : List Target) : List (String × Tally) :=
  targets.map (fun target => (target.name, target.file.tally)) ++ [("ALL FILES", totals targets)]

/-- The rows of a table, as far as they can be written. -/
def rowLines (targets : List Target) : List (Except Fault String) :=
  (entries targets).map fun entry => rowOf entry.1 entry.2

section Table

variable {style : ReportStyle} {targets : List Target}

/-- Every entry has a tally of verdicts, the last one that of all. -/
theorem exists_shows_of_mem_entries {entry : String × Tally} (h : entry ∈ entries targets) :
    ∃ lines, entry.2.Shows lines := by
  rcases List.mem_append.mp h with htarget | htotal
  · obtain ⟨target, -, rfl⟩ := List.mem_map.mp htarget
    refine ⟨target.file.verdicts.length, ?_⟩
    show target.file.tally.Shows _
    rw [SourceFile.tally_eq]
    exact Tally.shows_ofVerdicts _
  · obtain rfl := List.mem_singleton.mp htotal
    exact ⟨_, shows_totals targets⟩

/-- The totals are the sums of what the files have of each verdict. -/
theorem totals_eq_sums (targets : List Target) :
    totals targets
      = { covered := (targets.map (·.file.tally.covered)).sum
          partlyCovered := (targets.map (·.file.tally.partlyCovered)).sum
          uncovered := (targets.map (·.file.tally.uncovered)).sum
          dead := (targets.map (·.file.tally.dead)).sum } := by
  induction targets using List.reverseRecOn with
  | nil => rfl
  | append_singleton earlier last ih =>
      rw [totals_concat, ih]
      simp only [List.map_append, List.map_singleton, List.sum_append, List.sum_singleton]
      rfl

/-- A table has its heading, and below it the rows of its entries. -/
theorem lines_compact (h : style.compact = true) (targets : List Target) :
    Report.lines style targets = compactHeading.map .ok ++ rowLines targets := by
  have htarget : ∀ target ∈ targets,
      targetLines style target = [rowOf target.name target.file.tally] := by
    intro target _
    unfold targetLines
    rw [if_pos h]
  unfold Report.lines rowLines entries totalLine
  dsimp only
  rw [if_pos h, if_pos h, List.flatMap_congr htarget, ← List.map_eq_flatMap, List.map_append,
    List.map_map, List.append_assoc]
  rfl

/-- The heading is written, whatever follows it. -/
theorem written_append_ok (texts : List String) (rest : List (Except Fault String)) :
    written (texts.map .ok ++ rest) = texts ++ written rest := by
  induction texts with
  | nil => rfl
  | cons text _ ih => exact congrArg (text :: ·) ih

/-- None of the numbers in a table is greater than that of all executable lines. -/
theorem le_of_mem_numbers (h : style.compact = true) {n : Int} (hn : n ∈ numbers style targets) :
    0 ≤ n ∧ n ≤ (totals targets).lines := by
  have hcounts : ∀ (verdicts : List Verdict), ∀ count ∈ (Tally.ofVerdicts verdicts).lines
      :: (Tally.ofVerdicts verdicts).counts,
      0 ≤ count ∧ count ≤ (Tally.ofVerdicts verdicts).lines := by
    intro verdicts count hcount
    have hlines := Tally.lines_ofVerdicts verdicts
    rcases List.mem_cons.mp hcount with rfl | hmem
    · omega
    · exact Tally.counts_mem hmem
  rcases List.mem_append.mp hn with hfile | htotal
  · obtain ⟨target, htarget, hmem⟩ := List.mem_flatMap.mp hfile
    have hsum : target.file.executableLines ≤ (targets.map (·.file.executableLines)).sum :=
      List.le_sum_of_mem (List.mem_map_of_mem htarget)
    have htotal := (shows_totals targets).counts
    have hlines := target.file.agrees.lines
    unfold targetNumbers at hmem
    rw [if_pos h, SourceFile.tally_eq] at hmem
    rw [SourceFile.tally_eq] at hlines
    have hcount := hcounts _ n hmem
    omega
  · rw [if_pos h, (totals_eq targets).2] at htotal
    rw [(totals_eq targets).2]
    exact hcounts _ n htotal

/-- A table can be written completely exactly if the number of all executable lines can. -/
theorem fault?_lines_compact_iff (h : style.compact = true) (targets : List Target) :
    fault? (Report.lines style targets) = none
      ↔ (totals targets).lines < Numeral.firstTooLong := by
  have hmem : (totals targets).lines ∈ numbers style targets := by
    unfold numbers
    rw [if_pos h]
    exact List.mem_append_right _ List.mem_cons_self
  have hnonneg := (le_of_mem_numbers h hmem).1
  rw [fault?_lines, fault?_write, ite_eq_right_iff]
  constructor
  · intro hnone
    by_contra hlong
    have hfar : Numeral.firstTooLong ≤ (totals targets).lines.natAbs := by omega
    cases hnone ⟨_, hmem, hfar⟩
  · rintro hshort ⟨n, hn, hfar⟩
    have hle := le_of_mem_numbers h hn
    omega

/-- Each row that is printed is that of the entry at its place. -/
theorem exists_entry {index : Nat} {row : String}
    (h : (written (rowLines targets))[index]? = some row) :
    ∃ entry : String × Tally, (entries targets)[index]? = some entry ∧
      rowOf entry.1 entry.2 = .ok row := by
  obtain ⟨rest, hrows, -⟩ := exists_append_written (rowLines targets)
  have hplace : (rowLines targets)[index]? = some (.ok row) := by
    have hin : index
        < ((written (rowLines targets)).map (Except.ok : _ → Except Fault _)).length := by
      rw [List.length_map]
      exact (List.getElem?_eq_some_iff.mp h).1
    rw [hrows, List.getElem?_append_left hin, List.getElem?_map, h]
    rfl
  rw [rowLines, List.getElem?_map] at hplace
  exact Option.map_eq_some_iff.mp hplace

/-- All rows are printed exactly if the number of all executable lines can be written. -/
theorem length_rows_iff (targets : List Target) :
    (written (rowLines targets)).length = targets.length + 1
      ↔ (totals targets).lines < Numeral.firstTooLong := by
  have hcompact : (⟨true, false, false, false⟩ : ReportStyle).compact = true := rfl
  obtain ⟨rest, hrows, hnone⟩ := exists_append_written (rowLines targets)
  rw [← fault?_lines_compact_iff hcompact, lines_compact hcompact, fault?_append, fault?_map_ok,
    Option.none_or, ← hnone, ← List.length_eq_zero_iff]
  -- There is a row for each of the targets, and one for all of them.
  have hlength := congrArg List.length hrows
  have hentries : (rowLines targets).length = targets.length + 1 := by simp [rowLines, entries]
  rw [List.length_append, List.length_map] at hlength
  omega

/-- A row is one line where the names are. -/
theorem break_notMem_row (h : ∀ target ∈ targets, '\n' ∉ target.name.toList) :
    ∀ row ∈ written (rowLines targets), '\n' ∉ row.toList := by
  have hentries : ∀ entry ∈ entries targets, '\n' ∉ entry.1.toList := by
    have htotal : '\n' ∉ "ALL FILES".toList := by decide
    simpa [entries, or_imp, forall_and, htotal] using h
  intro row hmem hbreak
  obtain ⟨index, hindex⟩ := List.mem_iff_getElem?.mp hmem
  obtain ⟨entry, hentry, hrow⟩ := exists_entry hindex
  rcases mem_rowOf hrow hbreak with hname | ⟨-, hne⟩
  · exact hentries entry (List.mem_of_getElem? hentry) hname
  · exact hne rfl

end Table

/-- **The table stays aligned, and is cut only on the left.** Where no name has a line feed, a table
is printed as two heading lines and, below them, a row for each target, in order, and one for all of
them.

* The second heading line and every row are read by columns. In a row there is the whole percentage,
  the end of the name, and each of the counts of the file, whole if it has at most seven digits and
  otherwise its last seven.
* No row is missing, as long as the number of all executable lines can be written.
* The last row is about the sums over the files. -/
theorem table_aligned {style : ReportStyle} {targets : List Target}
    (hcompact : style.compact = true) (hnames : ∀ target ∈ targets, '\n' ∉ target.name.toList) :
    ∃ top heading rows,
      linesOf (printed (written (Report.lines style targets))) = top :: heading :: rows ∧
      Aligned heading ["Cover%", "Filename", "Lines", "Full", "Partial", "None", "Dead"] ∧
      (∀ (index : Nat) (row : String), rows[index]? = some row →
        ∃ entry : String × Tally, (entries targets)[index]? = some entry ∧
          RowShows entry.1 entry.2 row) ∧
      (rows.length = targets.length + 1 ↔ (totals targets).lines < Numeral.firstTooLong) ∧
      totals targets
        = { covered := (targets.map (·.file.tally.covered)).sum
            partlyCovered := (targets.map (·.file.tally.partlyCovered)).sum
            uncovered := (targets.map (·.file.tally.uncovered)).sum
            dead := (targets.map (·.file.tally.dead)).sum } := by
  have hprinted : linesOf (printed (written (Report.lines style targets)))
      = compactHeading ++ written (rowLines targets) := by
    have hheading : ∀ line ∈ compactHeading, '\n' ∉ line.toList := by decide +kernel
    rw [lines_compact hcompact, written_append_ok]
    exact linesOf_join_of_not_mem
      (List.forall_mem_append.mpr ⟨hheading, break_notMem_row hnames⟩)
  refine ⟨_, _, written (rowLines targets), hprinted, aligned_tableRow "Cover%" "Filename" rfl, ?_,
    length_rows_iff targets, totals_eq_sums targets⟩
  intro index row hindex
  obtain ⟨entry, hentry, hrow⟩ := exists_entry hindex
  obtain ⟨lines, hshows⟩ := exists_shows_of_mem_entries (List.mem_of_getElem? hentry)
  exact ⟨entry, hentry, rowShows_of_rowOf hshows hrow⟩

/-- A name with more characters than its column, on a file with one line. -/
theorem table_aligned_long_name :
    let style : ReportStyle := ⟨true, false, true, true⟩
    let targets : List Target := [⟨"generated/output/of/the/build/main.js", .cold "main.js" 3⟩]
    style.compact = true ∧ (∀ target ∈ targets, '\n' ∉ target.name.toList) ∧
    ∃ top heading row total,
      linesOf (printed (written (Report.lines style targets))) = [top, heading, row, total] ∧
      Aligned row ["0.0%", "generated/output/of/the/build/main.js", "1", "0", "0", "1", "0"] ∧
      Aligned total ["0.0%", "ALL FILES", "1", "0", "0", "1", "0"] := by
  intro style targets
  have hnames : ∀ target ∈ targets, '\n' ∉ target.name.toList :=
    List.forall_mem_singleton.mpr (by decide)
  have hentries : entries targets
      = [("generated/output/of/the/build/main.js", ⟨0, 0, 1, 0⟩), ("ALL FILES", ⟨0, 0, 1, 0⟩)] := by
    decide
  have hshows : ∀ name row, RowShows name ⟨0, 0, 1, 0⟩ row →
      Aligned row ["0.0%", name, "1", "0", "0", "1", "0"] := by
    rintro name row ⟨percent, hpercent, -, hrow⟩
    have hzero : percentText ⟨0, 0, 1, 0⟩ 0 = .ok "0.0%" := by decide +kernel
    obtain rfl : "0.0%" = percent := Except.ok.inj (hzero.symm.trans hpercent)
    exact hrow
  have hfew : (totals targets).lines < Numeral.firstTooLong := by
    have hone : 1 < Numeral.firstTooLong := by decide +kernel
    exact Int.ofNat_lt.mpr hone
  have hcompact : style.compact = true := rfl
  obtain ⟨top, heading, rows, hprinted, -, hrows, hlength, -⟩ := table_aligned hcompact hnames
  obtain ⟨row, total, rfl⟩ := List.length_eq_two.mp (hlength.mpr hfew)
  obtain ⟨first, hfirst, hrow⟩ := hrows 0 row rfl
  obtain ⟨last, hlast, htotal⟩ := hrows 1 total rfl
  rw [hentries] at hfirst hlast
  cases hfirst
  cases hlast
  exact ⟨hcompact, hnames, top, heading, row, total, hprinted, hshows _ row hrow,
    hshows _ total htotal⟩

end Report

end LineCoverage
