import LineCoverage.Proofs.Report.Containment
import LineCoverage.Proofs.Text.Tags

/-!
# `LineCoverage.Proofs.Report.Elements`: a page by its tags

A page is written in pieces of markup and text, and read by its tags. `pageTags`
has the tags of a page part by part: the table at the top with a row for each
target, and for each target a heading and the lines of its source, with a table
of instructions or without. Each part is written from its tags (`Tagged`), and so
is the page (`tagged_text`).

Nothing in these tags could be taken for markup. What stands in them is either
the report's own, or contained, as in `Containment`. So they are the tags that
are found in the text of a page, whatever is in the names and the sources.
-/

set_option autoImplicit false

namespace LineCoverage.Page

open Text

/-! ### The tags of a page -/

/-- The tags before the table at the top. -/
def openingTags (style program : String) : List Tag :=
  [⟨"html", [], ""⟩, ⟨"head", [], "\n"⟩, ⟨"title", [], "covmonkey code coverage"⟩,
    ⟨"/title", [], "\n"⟩, ⟨"style", [("type", "text/css")], "\n" ++ style⟩, ⟨"/style", [], "\n"⟩,
    ⟨"script", [], "\n" ++ program⟩, ⟨"/script", [], "\n"⟩, ⟨"/head", [], "\n"⟩,
    ⟨"body", [], "\n"⟩, ⟨"h1", [], "covmonkey code coverage"⟩, ⟨"/h1", [], "\n"⟩]

/-- The heading of that table. -/
def columns : Element where
  start := ⟨"tr", [], ""⟩
  inner :=
    [⟨"th", [], "Source File"⟩, ⟨"th", [], "Executable Lines"⟩, ⟨"th", [], "Covered"⟩,
      ⟨"th", [], "Partial"⟩, ⟨"th", [], "Uncovered"⟩, ⟨"th", [], "Dead"⟩]

/-- A count with its percentage, as it stands in that table. -/
def cellText (tally : Tally) (count : Int) : String :=
  toString count ++ " (" ++ (percentText tally count).toOption.getD "" ++ ")"

/-- The link of a target in that table. -/
def targetLink (target : Target) : Element :=
  ⟨⟨"a", [("href", "#" ++ escaped target.name)], escaped target.name⟩, []⟩

/-- The cells behind the link. -/
def cellTags (target : Target) : List Tag :=
  ⟨"td", [], toString target.file.tally.lines⟩
    :: target.file.tally.counts.flatMap fun count => [⟨"td", [], cellText target.file.tally count⟩]

/-- The row of a target in that table. -/
def summaryRow (target : Target) : Element where
  start := ⟨"tr", [], ""⟩
  inner := ⟨"td", [], ""⟩ :: (targetLink target).tags ⟨"/a", [], ""⟩ ++ cellTags target

/-- The table at the top. -/
def summaryTable (targets : List Target) : Element where
  start := ⟨"table", [], "\n"⟩
  inner := columns.tags ⟨"/tr", [], "\n"⟩
    ++ targets.flatMap fun target => (summaryRow target).tags ⟨"/tr", [], "\n"⟩

/-- The heading above a source. -/
def heading (name : String) : Element where
  start := ⟨"a", [("name", escaped name)], ""⟩
  inner := [⟨"h2", [], escaped name⟩, ⟨"/h2", [], ""⟩]

/-- The tags of a row of a table of instructions. -/
def operationTags (inst : Instruction) : List Tag :=
  [⟨"tr", [], ""⟩, ⟨"td", [], escaped inst.script⟩, ⟨"td", [], toString inst.pc⟩,
    ⟨"td", [], toString inst.count⟩, ⟨"td", [], escaped inst.asm⟩, ⟨"/tr", [], ""⟩]

/-- The tags of a table of instructions. -/
def operationsTags (insts : List Instruction) : List Tag :=
  [⟨"table", [("class", "ops hidden")], ""⟩, ⟨"tr", [], ""⟩, ⟨"th", [], "Script"⟩,
      ⟨"th", [], "PC"⟩, ⟨"th", [], "#"⟩, ⟨"th", [], "Instruction"⟩, ⟨"/tr", [], ""⟩]
    ++ insts.flatMap operationTags ++ [⟨"/table", [], ""⟩]

namespace Row

/-- The link of a line to itself. -/
def link (row : Row) : Element :=
  ⟨⟨"a", [("href", "#" ++ row.division.id), ("class", "num")], row.division.number⟩, []⟩

/-- The tags in a line, behind the link. -/
def contentTags (row : Row) : List Tag :=
  [⟨"span", [("class", "type")], row.division.note⟩, ⟨"/span", [], row.division.text⟩]
    ++ (row.operations.map operationsTags).getD []

/-- A line of a source. -/
def element (row : Row) : Element where
  start := ⟨"div", [("id", row.division.id), ("class", " ".intercalate row.division.classes)], ""⟩
  inner := row.link.tags ⟨"/a", [], ""⟩ ++ row.contentTags

end Row

/-- The lines of the source of a target; none if the source cannot be read. -/
def rowsOf (sources : Sources) (showOps : Bool) (target : Target) : List Row :=
  match sources target.name with
  | .error _ => []
  | .ok source => rows showOps target source

/-- The tags of an annotated source. -/
def sourceTags (sources : Sources) (showOps : Bool) (target : Target) : List Tag :=
  (heading target.name).tags ⟨"/a", [], "\n"⟩
    ++ (rowsOf sources showOps target).flatMap fun row => row.element.tags ⟨"/div", [], "\n"⟩

/-- The tags of a page. -/
def pageTags (sources : Sources) (showOps : Bool) (targets : List Target) : List Tag :=
  openingTags styleSheet (String.join (clickProgram.map (· ++ "\n")))
    ++ (summaryTable targets).tags ⟨"/table", [], "\n"⟩
    ++ targets.flatMap (sourceTags sources showOps)
    ++ [⟨"/body", [], "\n"⟩, ⟨"/html", [], "\n"⟩]

/-! ### What the tags are written as -/

/-- The style sheet opens no tag. -/
theorem notMem_styleSheet : '<' ∉ styleSheet.toList := by
  have hrules : ∀ rule ∈ styleRules, '<' ∉ rule.1.toList ∧ '<' ∉ rule.2.toList := by
    simp only [styleRules, List.forall_mem_cons, List.not_mem_nil, false_implies, implies_true,
      and_true, String.toList_append, List.mem_append, not_or]
    repeat' apply And.intro
    all_goals exact notMem_ofList rfl
  unfold styleSheet
  rw [String.toList_join, List.flatMap_map]
  intro hmem
  obtain ⟨rule, hrule, hmem⟩ := List.mem_flatMap.mp hmem
  simp [hrules rule hrule] at hmem

/-- Nor does the program of the page. -/
theorem notMem_clickProgram :
    '<' ∉ (String.join (clickProgram.map (· ++ "\n"))).toList := by
  have hlines : ∀ line ∈ clickProgram, '<' ∉ line.toList := by
    simp only [clickProgram, List.forall_mem_cons, List.not_mem_nil, false_implies, implies_true,
      and_true]
    repeat' apply And.intro
    all_goals exact notMem_ofList rfl
  rw [String.toList_join, List.flatMap_map]
  intro hmem
  obtain ⟨line, hline, hmem⟩ := List.mem_flatMap.mp hmem
  simp [hlines line hline] at hmem

/-- The opening is written from its tags. -/
theorem tagged_opening : Tagged (writePieces opening)
    (openingTags styleSheet (String.join (clickProgram.map (· ++ "\n")))) where
  text_eq := by
    -- What the style sheet and the program are does not matter here.
    have htext : ∀ style program : String,
        "<html><head>\n<title>covmonkey code coverage</title>\n"
            ++ ("<style type=\"text/css\">\n" ++ style ++ "</style>\n<script>\n" ++ program
              ++ "</script>\n")
            ++ "</head>\n<body>\n<h1>covmonkey code coverage</h1>\n"
          = writeTags (openingTags style program) := by
      intro style program
      refine String.toList_injective ?_
      simp [openingTags, writeTags, Tag.write, Tag.body, Tag.attributesText, Tag.attributeText]
    rw [opening, writePieces_markup, writePieces_markup, writePieces_markup, writePieces_nil,
      String.append_empty, ← String.append_assoc]
    exact htext styleSheet _
  valid := by
    have hstyle : '<' ∉ ("\n" ++ styleSheet).toList := by simp [notMem_styleSheet]
    have hprogram : '<' ∉ ("\n" ++ String.join (clickProgram.map (· ++ "\n"))).toList := by
      rw [String.toList_append, List.mem_append, not_or]
      exact ⟨by decide, notMem_clickProgram⟩
    simp only [openingTags, List.forall_mem_cons, List.not_mem_nil, false_implies, implies_true,
      and_true]
    -- All but two are written out.
    refine ⟨?_, ?_, ?_, ?_, valid_tag ?_ ?_ hstyle, ?_, valid_tag ?_ ?_ hprogram, ?_, ?_, ?_, ?_,
      ?_⟩
    all_goals decide

/-- A row of a table of instructions is written from its tags. -/
theorem tagged_operationText (inst : Instruction) :
    Tagged (operationText inst) (operationTags inst) where
  text_eq := by
    refine String.toList_injective ?_
    simp [operationText, operationTags, writeTags, Tag.write, Tag.body, Tag.attributesText]
  valid := by
    have hpc := Contained.plain (plain_intText inst.pc)
    have hcount := Contained.plain (plain_intText inst.count)
    simp only [operationTags, List.forall_mem_cons, List.not_mem_nil, false_implies, implies_true,
      and_true]
    exact ⟨by decide, valid_bare (by decide) (.escaped inst.script), valid_bare (by decide) hpc,
      valid_bare (by decide) hcount, valid_bare (by decide) (.escaped inst.asm), by decide⟩

/-- A table of instructions is written from its tags. -/
theorem tagged_tableText (insts : List Instruction) :
    Tagged (Division.tableText (insts.map operationText)) (operationsTags insts) := by
  have hheading : Tagged
      "<table class=\"ops hidden\"><tr><th>Script<th>PC<th>#<th>Instruction</tr>"
      [⟨"table", [("class", "ops hidden")], ""⟩, ⟨"tr", [], ""⟩, ⟨"th", [], "Script"⟩,
        ⟨"th", [], "PC"⟩, ⟨"th", [], "#"⟩, ⟨"th", [], "Instruction"⟩, ⟨"/tr", [], ""⟩] := by
    refine ⟨String.toList_injective ?_, by decide⟩
    simp [writeTags, Tag.write, Tag.body, Tag.attributesText, Tag.attributeText]
  have hrows := Tagged.join_map fun inst (_ : inst ∈ insts) => tagged_operationText inst
  have hend : Tagged "</table>" [⟨"/table", [], ""⟩] := ⟨by decide, by decide⟩
  exact (hheading.append hrows).append hend

/-- A line of a source is written from its tags. -/
theorem tagged_division (row : Row) :
    Tagged row.division.write (row.element.tags ⟨"/div", [], "\n"⟩) := by
  have hstart : row.element.start.Valid := by
    refine valid_tag (by decide) (List.forall_mem_cons.mpr ⟨?_, ?_⟩) (by decide)
    · exact valid_attribute (by decide) (contained_id row)
    · exact List.forall_mem_singleton.mpr (valid_attribute (by decide) (contained_classes row))
  have hlink : row.link.start.Valid := by
    have hid : Contained ("#" ++ row.division.id) [] :=
      (Contained.plain (by decide)).append (contained_id row)
    have hnumber := Contained.plain (plain_natText row.number)
    refine valid_tag (by decide) (List.forall_mem_cons.mpr ⟨?_, ?_⟩) (notMem_of_contained hnumber)
    · exact valid_attribute (by decide) hid
    · exact List.forall_mem_singleton.mpr (by decide)
  have hnote := notMem_of_contained (.plain (plain_noteText row.mark))
  have htext := Contained.escaped (if row.text = "" then " " else row.text)
  have hline : Tagged
      ("<div id=\"" ++ row.division.id ++ "\" class=\"" ++ " ".intercalate row.division.classes
        ++ "\"><a href=\"#" ++ row.division.id ++ "\" class=\"num\">" ++ row.division.number
        ++ "</a><span class=\"type\">" ++ row.division.note ++ "</span>" ++ row.division.text)
      [row.element.start, row.link.start, ⟨"/a", [], ""⟩,
        ⟨"span", [("class", "type")], row.division.note⟩, ⟨"/span", [], row.division.text⟩] := by
    refine ⟨String.toList_injective ?_, ?_⟩
    · simp [Row.element, Row.link, writeTags, Tag.write, Tag.body, Tag.attributesText,
        Tag.attributeText]
    · simp only [List.forall_mem_cons, List.not_mem_nil, false_implies, implies_true, and_true]
      exact ⟨hstart, hlink, by decide, valid_tag (by decide) (by decide) hnote,
        valid_bare (by decide) htext⟩
  have htable : Tagged ((row.division.table.map Division.tableText).getD "")
      ((row.operations.map operationsTags).getD []) := by
    unfold Row.division
    cases row.operations with
    | none => exact ⟨rfl, by decide⟩
    | some insts => exact tagged_tableText insts
  have hend : Tagged "</div>\n" [⟨"/div", [], "\n"⟩] := ⟨by decide, by decide⟩
  exact (hline.append htable).append hend

/-- The heading above a source is written from its tags. -/
theorem tagged_headingText (name : String) :
    Tagged (headingText name) ((heading name).tags ⟨"/a", [], "\n"⟩) := by
  refine ⟨String.toList_injective ?_, ?_⟩
  · simp [headingText, heading, Element.tags, writeTags, Tag.write, Tag.body, Tag.attributesText,
      Tag.attributeText]
  · have hname : ∀ pair ∈ [("name", escaped name)], ValidAttribute pair :=
      List.forall_mem_singleton.mpr (valid_attribute (by decide) (.escaped name))
    simp only [heading, Element.tags, List.cons_append, List.nil_append, List.forall_mem_cons,
      List.not_mem_nil, false_implies, implies_true, and_true]
    exact ⟨valid_tag (by decide) hname (by decide), valid_bare (by decide) (.escaped name),
      by decide, by decide⟩

/-- An annotated source is written from its tags. -/
theorem tagged_sourcePieces {sources : Sources} {showOps : Bool} {target : Target}
    {pieces : List Piece} (h : sourcePieces sources showOps target = .ok pieces) :
    Tagged (writePieces pieces) (sourceTags sources showOps target) := by
  obtain ⟨source, hsource, -⟩ := (exists_sourcePieces_iff sources showOps target).mp ⟨pieces, h⟩
  have hrows : rowsOf sources showOps target = rows showOps target source := by
    rw [rowsOf, hsource]
  have hlines : Tagged (String.join ((divisions target source showOps).map Division.write))
      ((rows showOps target source).flatMap fun row =>
        row.element.tags ⟨"/div", [], "\n"⟩) := by
    rw [divisions, List.map_map]
    exact .join_map fun row _ => tagged_division row
  rw [writePieces_sourcePieces target source hsource h, sourceTags, hrows]
  exact (tagged_headingText target.name).append hlines

/-- A count with its percentage is written from its tag. -/
theorem tagged_cell {tally : Tally} {count : Int} {cell : String}
    (h : (percentText tally count).map (fun percent =>
      "<td>" ++ toString count ++ " (" ++ percent ++ ")") = .ok cell) :
    Tagged cell [⟨"td", [], cellText tally count⟩] := by
  unfold cellText
  cases hpercent : percentText tally count with
  | error fault =>
      rw [hpercent] at h
      cases h
  | ok percent =>
      rw [hpercent] at h
      obtain rfl := Except.ok.inj h
      have hcell : Contained (toString count ++ " (" ++ percent ++ ")") [] :=
        ((Contained.plain (plain_intText count)).fill " (" (by decide)
          (.plain (plain_percentText hpercent))).append (.plain (by decide))
      refine ⟨String.toList_injective ?_, List.forall_mem_singleton.mpr ?_⟩
      · simp [writeTags, Tag.write, Tag.body, Tag.attributesText, Except.toOption]
      · exact valid_bare (by decide) hcell

/-- The row of a target is written from its tags. -/
theorem tagged_summaryPieces {target : Target} {pieces : List Piece}
    (h : summaryPieces target = .ok pieces) :
    Tagged (writePieces pieces) ((summaryRow target).tags ⟨"/tr", [], "\n"⟩) := by
  unfold summaryPieces at h
  dsimp only at h
  cases hcells : target.file.tally.counts.mapM (fun count =>
      (percentText target.file.tally count).map fun percent =>
        "<td>" ++ toString count ++ " (" ++ percent ++ ")") with
  | error fault =>
      rw [hcells] at h
      cases h
  | ok cells =>
      rw [hcells] at h
      obtain rfl := Except.ok.inj h
      -- A row is its link, then a cell for each count, and the end of the row.
      have hjoined := Tagged.join ((forall₂_of_mapM hcells).imp fun _ _ => tagged_cell)
      have hlink : Tagged ("<tr><td><a href=\"#" ++ escaped target.name ++ "\">"
            ++ escaped target.name ++ "</a><td>" ++ toString target.file.tally.lines)
          [⟨"tr", [], ""⟩, ⟨"td", [], ""⟩, (targetLink target).start, ⟨"/a", [], ""⟩,
            ⟨"td", [], toString target.file.tally.lines⟩] := by
        refine ⟨String.toList_injective ?_, ?_⟩
        · simp [targetLink, writeTags, Tag.write, Tag.body, Tag.attributesText, Tag.attributeText]
        · have hname : ∀ pair ∈ [("href", "#" ++ escaped target.name)], ValidAttribute pair :=
            List.forall_mem_singleton.mpr (valid_attribute (by decide)
              ((Contained.plain (by decide)).append (.escaped target.name)))
          simp only [targetLink, List.forall_mem_cons, List.not_mem_nil, false_implies,
            implies_true, and_true]
          exact ⟨by decide, by decide,
            valid_tag (by decide) hname (notMem_of_contained (.escaped target.name)), by decide,
            valid_bare (by decide) (.plain (plain_intText target.file.tally.lines))⟩
      have hend : Tagged "</tr>\n" [⟨"/tr", [], "\n"⟩] := ⟨by decide, by decide⟩
      have hrow : Tagged _ ((summaryRow target).tags ⟨"/tr", [], "\n"⟩) :=
        (hlink.append hjoined).append hend
      rw [writePieces_markup, writePieces_text, writePieces_markup, writePieces_text,
        writePieces_markup, writePieces_nil]
      simpa only [String.append_assoc, String.append_empty] using hrow

/-- The heading of the table at the top is written from its tags. -/
theorem tagged_summaryHeading : Tagged (writePieces summaryHeading)
    (⟨"table", [], "\n"⟩ :: columns.tags ⟨"/tr", [], "\n"⟩) := by
  refine ⟨String.toList_injective ?_, by decide⟩
  simp [summaryHeading, columns, Element.tags, writeTags, Tag.write, Tag.body, Tag.attributesText]

/-- **A page is written from its tags.** -/
theorem tagged_text {sources : Sources} {showOps : Bool} {targets : List Target} {page : String}
    (h : text sources showOps targets = .ok page) :
    Tagged page (pageTags sources showOps targets) := by
  obtain ⟨summary, bodies, hsummary, hbodies, rfl⟩ := exists_parts h
  have hrows := Tagged.join (List.forall₂_map_right_iff.mpr
    ((forall₂_of_mapM hsummary).imp fun _ _ => tagged_summaryPieces))
  have hsources := Tagged.join (List.forall₂_map_right_iff.mpr
    ((forall₂_of_mapM hbodies).imp fun _ _ => tagged_sourcePieces))
  rw [← writePieces_flatten] at hrows hsources
  have htable : Tagged "</table>\n" [⟨"/table", [], "\n"⟩] := ⟨by decide, by decide⟩
  have hend : Tagged "</body>\n</html>\n" [⟨"/body", [], "\n"⟩, ⟨"/html", [], "\n"⟩] :=
    ⟨by decide, by decide⟩
  -- The heading of the table and its rows are written as two parts, and are one element.
  have htags : pageTags sources showOps targets
      = openingTags styleSheet (String.join (clickProgram.map (· ++ "\n")))
        ++ (⟨"table", [], "\n"⟩ :: columns.tags ⟨"/tr", [], "\n"⟩)
        ++ (targets.flatMap fun target => (summaryRow target).tags ⟨"/tr", [], "\n"⟩)
        ++ [⟨"/table", [], "\n"⟩] ++ targets.flatMap (sourceTags sources showOps)
        ++ [⟨"/body", [], "\n"⟩, ⟨"/html", [], "\n"⟩] := by
    rw [pageTags, Element.tags, summaryTable]
    simp only [List.cons_append, List.append_assoc]
  rw [htags, writePieces_append, writePieces_append, writePieces_append, writePieces_append,
    writePieces_append, writePieces_markup, writePieces_markup, writePieces_nil,
    String.append_empty, String.append_empty]
  exact ((((tagged_opening.append tagged_summaryHeading).append hrows).append htable).append
    hsources).append hend

end LineCoverage.Page
