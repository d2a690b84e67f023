import LineCoverage.Proofs.Report.Division
import LineCoverage.Proofs.Report.Page

/-!
# `LineCoverage.Proofs.Report.Containment`: what foreign text cannot do

Names of files and scripts, disassemblies and sources come from outside, and a
page is full of them. `text_contained` says that they stay text. The tags and
attributes of a page begin and end where its delimiters are, and these are known
from the outline alone: how many targets there are, how many lines their sources
have, and for each line whether the coverage knows it and how many instructions
it has (`pageFrame`). So two pages with the same outline have the same
delimiters, whatever else they say. An ampersand, too, means nothing but one of
the characters that were escaped.

The parts of a page are `Contained` one by one, and then together. What the
report itself writes between its markup, numbers, percentages and the words for
verdicts, is plain.
-/

set_option autoImplicit false

namespace LineCoverage

open Text

/-! ### Plain texts of the report -/

/-- The word for a verdict is plain. -/
theorem Verdict.plain_label (verdict : Verdict) : Plain verdict.label.toList := by
  cases verdict <;> decide

namespace Page

/-- A percentage is plain. -/
theorem plain_percentText {tally : Tally} {count : Int} {percent : String}
    (h : percentText tally count = .ok percent) : Plain percent.toList := by
  have hmarks : Plain "-.n/a".toList := by decide
  have hunit : Plain "%".toList := by decide
  intro c hc
  rcases Tally.mem_percentText h hc with hdigit | hmem | hmem
  · exact plain_of_isDigit hdigit
  · exact hmarks c hmem
  · exact hunit c hmem

/-- The classes of a line are plain. -/
theorem plain_classes (mark : Option Mark) : Plain (Mark.classes mark).toList := by
  cases mark with
  | none => decide
  | some mark =>
      simp only [Mark.classes, String.toList_append, plain_append]
      exact ⟨⟨⟨by decide, mark.verdict.plain_label⟩, by decide⟩, plain_natText mark.heat⟩

/-- The note on a line is plain. -/
theorem plain_noteText (mark : Option Mark) : Plain (noteText mark).toList := by
  cases mark with
  | none => decide
  | some mark =>
      unfold noteText
      dsimp only
      split
      · rw [String.toList_append]
        refine plain_append.mpr ⟨by decide, plain_intercalate (by decide) ?_⟩
        intro part hpart
        obtain ⟨count, -, rfl⟩ := List.mem_map.mp hpart
        exact plain_intText count
      · rw [String.toList_append]
        exact plain_append.mpr ⟨by decide, mark.verdict.plain_label⟩

/-! ### The annotated sources -/

/-- The delimiters of a row of a table of instructions. -/
def operationFrame : List Char := delimiters "<tr><td><td><td><td></tr>".toList

/-- The delimiters of a table of so many instructions. -/
def tableFrame (count : Nat) : List Char :=
  delimiters "<table class=\"ops hidden\"><tr><th>Script<th>PC<th>#<th>Instruction</tr>".toList
    ++ (List.replicate count operationFrame).flatten ++ delimiters "</table>".toList

/-- The delimiters of a line, with a table of so many instructions or without one. -/
def lineFrame (table : Option Nat) : List Char :=
  delimiters
      "<div id=\"\" class=\"\"><a href=\"#\" class=\"num\"></a><span class=\"type\"></span>".toList
    ++ (table.map tableFrame).getD [] ++ delimiters "</div>\n".toList

/-- What an annotated source has of a file besides texts and numbers: for each line of the source,
how many instructions the file has on it, and none if the file does not have the line. -/
def outline (file : SourceFile) (source : String) : List (Option Nat) :=
  (lines source).mapIdx fun index _ => (file.lines.get? (index + 1 : Nat)).map (·.toList.length)

/-- The delimiters of an annotated source. -/
def sourceFrame (showOps : Bool) (outline : List (Option Nat)) : List Char :=
  delimiters "<a name=\"\"><h2></h2></a>\n".toList
    ++ outline.flatMap fun line => lineFrame (if showOps then line else none)

/-- A row of a table of instructions is contained. -/
theorem contained_operationText (inst : Instruction) :
    Contained (operationText inst) operationFrame := by
  have hscript := (Contained.markup "<tr><td>" (by decide)).append (.escaped inst.script)
  have hpc := hscript.fill "<td>" (by decide) (.plain (plain_intText inst.pc))
  have hcount := hpc.fill "<td>" (by decide) (.plain (plain_intText inst.count))
  have hasm := hcount.fill "<td>" (by decide) (.escaped inst.asm)
  exact hasm.append (.markup "</tr>" (by decide))

/-- A table of instructions is contained. -/
theorem contained_tableText (insts : List Instruction) :
    Contained (Division.tableText (insts.map operationText)) (tableFrame insts.length) := by
  have hrows : Contained (String.join (insts.map operationText))
      (List.replicate insts.length operationFrame).flatten := by
    rw [← List.map_const', ← List.flatMap_def]
    exact .join_map fun inst _ => contained_operationText inst
  exact ((Contained.markup _ (by decide)).append hrows).append (.markup _ (by decide))

/-- The address of a line is contained, and has no delimiters. -/
theorem contained_id (row : Row) : Contained row.division.id [] :=
  (Contained.escaped row.name).fill ":" (by decide) (.plain (plain_natText row.number))

/-- So are its classes. -/
theorem contained_classes (row : Row) :
    Contained (" ".intercalate row.division.classes) [] := by
  rw [show " ".intercalate row.division.classes = Mark.classes row.mark from
    (classes_mark row.mark).symm]
  exact .plain (plain_classes row.mark)

/-- A line of an annotated source is contained. -/
theorem contained_division (row : Row) :
    Contained row.division.write (lineFrame (row.operations.map List.length)) := by
  have htable : Contained ((row.division.table.map Division.tableText).getD "")
      (((row.operations.map List.length).map tableFrame).getD []) := by
    unfold Row.division
    cases row.operations with
    | none => exact .empty
    | some insts => exact contained_tableText insts
  have hid := (Contained.markup "<div id=\"" (by decide)).append (contained_id row)
  have hclass := hid.fill "\" class=\"" (by decide) (contained_classes row)
  have hlink := hclass.fill "\"><a href=\"#" (by decide) (contained_id row)
  have hnumber := hlink.fill "\" class=\"num\">" (by decide) (.plain (plain_natText row.number))
  have hnote := hnumber.fill "</a><span class=\"type\">" (by decide)
    (.plain (plain_noteText row.mark))
  have htext := hnote.fill "</span>" (by decide)
    (.escaped (if row.text = "" then " " else row.text))
  exact (htext.append htable).append (.markup "</div>\n" (by decide))

/-- The heading above a source is contained. -/
theorem contained_headingText (name : String) :
    Contained (headingText name) (delimiters "<a name=\"\"><h2></h2></a>\n".toList) := by
  have hname := (Contained.markup "<a name=\"" (by decide)).append (.escaped name)
  have hheading := hname.fill "\"><h2>" (by decide) (.escaped name)
  exact hheading.append (.markup "</h2></a>\n" (by decide))

/-- The instructions that are shown line by line. -/
theorem map_operations_rows (showOps : Bool) (target : Target) (source : String) :
    (rows showOps target source).map (·.operations.map List.length)
      = (outline target.file source).map fun line => if showOps then line else none := by
  unfold rows outline
  rw [List.mapIdx_eq_zipIdx_map, List.mapIdx_eq_zipIdx_map, List.map_map, List.map_map]
  refine List.map_congr_left fun entry _ => ?_
  cases showOps with
  | false => rfl
  | true => exact Option.map_map ..

/-- What a target has besides texts and numbers; nothing if its source cannot be read. -/
def outlineOf (sources : Sources) (target : Target) : List (Option Nat) :=
  match sources target.name with
  | .error _ => []
  | .ok source => outline target.file source

/-- An annotated source is contained. -/
theorem contained_sourcePieces {sources : Sources} {showOps : Bool} {target : Target}
    {pieces : List Piece} (h : sourcePieces sources showOps target = .ok pieces) :
    Contained (writePieces pieces) (sourceFrame showOps (outlineOf sources target)) := by
  obtain ⟨source, hsource, -⟩ := (exists_sourcePieces_iff sources showOps target).mp ⟨pieces, h⟩
  have hlines : Contained (String.join ((divisions target source showOps).map Division.write))
      ((outline target.file source).flatMap fun line =>
        lineFrame (if showOps then line else none)) := by
    have hrows := Contained.join_map fun row (_ : row ∈ rows showOps target source) =>
      contained_division row
    rw [← List.flatMap_map, map_operations_rows, List.flatMap_map] at hrows
    rwa [divisions, List.map_map]
  rw [writePieces_sourcePieces target source hsource h, outlineOf, hsource]
  exact (contained_headingText target.name).append hlines

/-! ### The table at the top -/

/-- The delimiters of the row of a target. -/
def summaryFrame : List Char :=
  delimiters "<tr><td><a href=\"#\"></a><td><td><td><td><td></tr>\n".toList

/-- A count with its percentage is contained. -/
theorem contained_cell {tally : Tally} {count : Int} {cell : String}
    (h : (percentText tally count).map (fun percent =>
      "<td>" ++ toString count ++ " (" ++ percent ++ ")") = .ok cell) :
    Contained cell (delimiters "<td>".toList) := by
  cases hpercent : percentText tally count with
  | error fault =>
      rw [hpercent] at h
      cases h
  | ok percent =>
      rw [hpercent] at h
      obtain rfl := Except.ok.inj h
      have hcount := (Contained.markup "<td>" (by decide)).append (.plain (plain_intText count))
      have hshare := hcount.fill " (" (by decide) (.plain (plain_percentText hpercent))
      exact hshare.append (.markup ")" (by decide))

/-- The row of a target is contained. -/
theorem contained_summaryPieces {target : Target} {pieces : List Piece}
    (h : summaryPieces target = .ok pieces) : Contained (writePieces pieces) summaryFrame := by
  unfold summaryPieces at h
  dsimp only at h
  cases hcells : target.file.tally.counts.mapM (fun count =>
      (percentText target.file.tally count).map fun percent =>
        "<td>" ++ toString count ++ " (" ++ percent ++ ")") with
  | error fault =>
      rw [hcells] at h
      cases h
  | ok cells =>
      rw [hcells] at h
      obtain rfl := Except.ok.inj h
      have hjoined := Contained.join ((forall₂_of_mapM hcells).imp fun _ _ => contained_cell)
      have hlink := (Contained.markup "<tr><td><a href=\"#" (by decide)).append
        (.escaped target.name)
      have hname := hlink.fill "\">" (by decide) (.escaped target.name)
      have hlines := hname.fill "</a><td>" (by decide)
        (.plain (plain_intText target.file.tally.lines))
      have hrow : Contained _ summaryFrame :=
        (hlines.append hjoined).append (.markup "</tr>\n" (by decide))
      rw [writePieces_markup, writePieces_text, writePieces_markup, writePieces_text,
        writePieces_markup, writePieces_nil]
      simpa only [String.append_assoc, String.append_empty] using hrow

/-! ### Pages -/

/-- The heading of the table is markup without ampersands. -/
theorem contained_summaryHeading : Contained (writePieces summaryHeading)
    (delimiters (writePieces summaryHeading).toList) := by
  rw [summaryHeading, writePieces_markup, writePieces_nil, String.append_empty]
  refine .markup _ ?_
  rw [String.toList_append, List.mem_append, not_or]
  decide

/-- The delimiters of a page below its opening. -/
def bodyFrame (showOps : Bool) (outlines : List (List (Option Nat))) : List Char :=
  delimiters (writePieces summaryHeading).toList
    ++ (List.replicate outlines.length summaryFrame).flatten
    ++ delimiters "</table>\n".toList
    ++ outlines.flatMap (sourceFrame showOps)
    ++ delimiters "</body>\n</html>\n".toList

/-- The delimiters of a page. -/
def pageFrame (showOps : Bool) (outlines : List (List (Option Nat))) : List Char :=
  delimiters (writePieces opening).toList ++ bodyFrame showOps outlines

/-- Below its opening, which is the same for all pages, a page is contained. -/
theorem exists_contained {sources : Sources} {showOps : Bool} {targets : List Target}
    {page : String} (h : text sources showOps targets = .ok page) :
    ∃ rest, page = writePieces opening ++ rest ∧
      Contained rest (bodyFrame showOps (targets.map (outlineOf sources))) := by
  obtain ⟨summary, bodies, hsummary, hbodies, rfl⟩ := exists_parts h
  have hrows : Contained (writePieces summary.flatten)
      (List.replicate (targets.map (outlineOf sources)).length summaryFrame).flatten := by
    rw [List.length_map, ← List.map_const', ← List.flatMap_def, writePieces_flatten]
    refine .join (List.forall₂_map_right_iff.mpr ?_)
    exact (forall₂_of_mapM hsummary).imp fun _ _ => contained_summaryPieces
  have hsources : Contained (writePieces bodies.flatten)
      ((targets.map (outlineOf sources)).flatMap (sourceFrame showOps)) := by
    rw [List.flatMap_map, writePieces_flatten]
    refine .join (List.forall₂_map_right_iff.mpr ?_)
    exact (forall₂_of_mapM hbodies).imp fun _ _ => contained_sourcePieces
  have htable := (contained_summaryHeading.append hrows).append
    (.markup "</table>\n" (by decide))
  have hall := (htable.append hsources).append (.markup "</body>\n</html>\n" (by decide))
  refine ⟨_, ?_, hall⟩
  simp only [writePieces_append, writePieces_markup, writePieces_nil, String.append_assoc,
    String.append_empty]

/-- The delimiters of a page are known from the outlines of its targets. -/
theorem delimiters_text {sources : Sources} {showOps : Bool} {targets : List Target}
    {page : String} (h : text sources showOps targets = .ok page) :
    delimiters page.toList = pageFrame showOps (targets.map (outlineOf sources)) := by
  obtain ⟨rest, rfl, hrest⟩ := exists_contained h
  rw [String.toList_append, delimiters_append, hrest.delimiters, pageFrame]

/-- **Foreign text stays text.** There is a page on some targets exactly if all their sources can be
read and no number that it shows is too long to be written. Of each page that there is:

* The delimiters are known from the outlines of the targets: how many targets there are, how many
  lines their sources have, and which of these the coverage knows, with how many instructions.
* So any other page with these outlines, on other targets and other sources, has the same
  delimiters.
* Below the opening of the page, which is fixed, every ampersand opens one of the five entities. -/
theorem text_contained (sources : Sources) (showOps : Bool) (targets : List Target) :
    ((∃ page, text sources showOps targets = .ok page) ↔
      ∀ target ∈ targets, ∃ source, sources target.name = .ok source ∧
        target.file.Writable showOps (lines source).length) ∧
    ∀ page, text sources showOps targets = .ok page →
      delimiters page.toList = pageFrame showOps (targets.map (outlineOf sources)) ∧
      (∀ (others : List Target) (otherSources : Sources) (other : String),
        others.map (outlineOf otherSources) = targets.map (outlineOf sources) →
        text otherSources showOps others = .ok other →
        delimiters other.toList = delimiters page.toList) ∧
      ∃ rest, page = writePieces opening ++ rest ∧ EntitiesOnly rest.toList := by
  refine ⟨exists_text_iff sources showOps targets, fun page hpage => ?_⟩
  obtain ⟨rest, hsplit, hrest⟩ := exists_contained hpage
  refine ⟨delimiters_text hpage, ?_, rest, hsplit, hrest.entities⟩
  intro others otherSources other houtlines hother
  rw [delimiters_text hother, delimiters_text hpage, houtlines]

/-- A file, a script, a disassembly and a source that all try to be markup. There is a page on them,
and it has the delimiters of any other page on one line with one instruction. -/
theorem text_contained_hostile :
    let file := (SourceFile.empty "a.js").alterLine 1
      (·.add ⟨"<script>:1", 0, ⟨"a.js", 1⟩, 1, "string \"</td>\"", false⟩)
    let targets : List Target := [⟨"\"><script>", file⟩]
    let sources : Sources := fun _ => .ok "'</div>' &lt"
    ∃ page rest, text sources true targets = .ok page ∧
      delimiters page.toList = pageFrame true [[some 1]] ∧
      (∀ (others : List Target) (otherSources : Sources) (other : String),
        others.map (outlineOf otherSources) = [[some 1]] →
        text otherSources true others = .ok other →
        delimiters other.toList = delimiters page.toList) ∧
      page = writePieces opening ++ rest ∧ EntitiesOnly rest.toList := by
  intro file targets sources
  have hsmall : ∀ index < 1, ∀ inst ∈ file.insts ((index + 1 : Nat) : Int),
      inst.pc.natAbs < Numeral.firstTooLong ∧ inst.count.natAbs < Numeral.firstTooLong := by
    decide +kernel
  have hlines : (lines "'</div>' &lt").length = 1 := by decide
  have hwritable : file.Writable true (lines "'</div>' &lt").length := by
    rw [hlines]
    exact ⟨fun index hindex _ inst hinst => (hsmall index hindex inst hinst).2, fun _ => hsmall⟩
  have houtline : targets.map (outlineOf sources) = [[some 1]] := by decide
  obtain ⟨hexists, hpages⟩ := text_contained sources true targets
  obtain ⟨page, hpage⟩ := hexists.mpr (List.forall_mem_singleton.mpr ⟨_, rfl, hwritable⟩)
  obtain ⟨hframe, hothers, rest, hrest⟩ := hpages page hpage
  rw [houtline] at hframe hothers
  exact ⟨page, rest, hpage, hframe, hothers, hrest⟩

end Page

end LineCoverage
