import LineCoverage.Proofs.Report.Elements

/-!
# `LineCoverage.Proofs.Report.Addresses`: what the links of a page lead to

Every line of a source has an address, made of the escaped name of its target, a
colon and its number, and all of them stand in one page. A name may have colons
and digits in it too, so `a:1` may be the name of a target. Still no two lines
have one address: behind the last colon there is the number and nothing else, and
in front of it the name (`named_injective`), which escaping keeps apart from every
other name.

The lines, the headings and the rows of the table at the top are found as elements
of a page (`divisionsOf_eq`, `headingsOf_eq`, `summaryRows_eq`), since it is known
which names the tags of each part have. `text_unambiguous` says which ids, names
and links they have.

Ids are distinct among ids, and names among names. The heading of a target `a:1`
has the name that the first line of a target `a` has for its id.
-/

set_option autoImplicit false

namespace LineCoverage.Page

open Text

/-! ### Addresses -/

/-- The address of a line: the name of its target, a colon, and its number. -/
def address (name : String) (number : Nat) : String := escaped name ++ ":" ++ toString number

/-- The addresses of the lines of a target; none if its source cannot be read. -/
def addresses (sources : Sources) (target : Target) : List String :=
  match sources target.name with
  | .error _ => []
  | .ok source =>
    (List.range (lines source).length).map fun index => address target.name (index + 1)

/-- Texts are distinct in a page, and they mean distinct texts. -/
structure Distinct (texts : List String) : Prop where
  written : texts.Nodup
  meant : (texts.map unescaped).Nodup

/-- Texts that mean distinct texts are distinct. -/
theorem Distinct.of_meant {texts : List String} (h : (texts.map unescaped).Nodup) :
    Distinct texts :=
  ⟨.of_map unescaped h, h⟩

/-- What an address means. -/
theorem unescaped_address (name : String) (number : Nat) :
    unescaped (address name number) = name ++ ":" ++ toString number := by
  have hplain : '&' ∉ (":" ++ toString number).toList := by
    rw [String.toList_append, List.mem_append, not_or]
    exact ⟨by decide, (plain_natText number).not_mem⟩
  rw [address, String.append_assoc, unescaped_escaped_append name hplain, String.append_assoc]

/-- **A name and a number with a colon between them are no other name and number**, whatever the
name may be. -/
theorem named_injective {name other : String} {number place : Nat}
    (h : name ++ ":" ++ toString number = other ++ ":" ++ toString place) :
    name = other ∧ number = place := by
  -- A number has no colon, so the last colon stands in front of it.
  have hcolon : ∀ number : Nat, ':' ∉ (toString number).toList := by
    intro number hmem
    have hdigit := isDigit_of_mem_natText hmem
    exact absurd hdigit (by decide)
  have hsplit : name.toList ++ ':' :: (toString number).toList
      = other.toList ++ ':' :: (toString place).toList := by
    simpa using congrArg String.toList h
  obtain ⟨hname, hnumber⟩ := append_cons_inj_of_notMem (hcolon number) (hcolon place) hsplit
  exact ⟨String.toList_injective hname, natText_injective (String.toList_injective hnumber)⟩

/-- No two lines have one address. -/
theorem distinct_addresses (sources : Sources) {targets : List Target}
    (hnames : (targets.map (·.name)).Nodup) : Distinct (targets.flatMap (addresses sources)) := by
  refine .of_meant ?_
  have hmem : ∀ {target : Target} {meant : String},
      meant ∈ (addresses sources target).map unescaped →
      ∃ number : Nat, meant = target.name ++ ":" ++ toString number := by
    intro target meant hmeant
    obtain ⟨written, hwritten, rfl⟩ := List.mem_map.mp hmeant
    unfold addresses at hwritten
    split at hwritten
    · cases hwritten
    · obtain ⟨index, -, rfl⟩ := List.mem_map.mp hwritten
      exact ⟨index + 1, unescaped_address target.name (index + 1)⟩
  rw [List.map_flatMap, List.nodup_flatMap]
  constructor
  · -- The lines of one target differ in their numbers.
    intro target _
    unfold addresses
    split
    · exact List.nodup_nil
    · rw [List.map_map]
      refine List.nodup_range.map fun index place heq => ?_
      have hsame : target.name ++ ":" ++ toString (index + 1)
          = target.name ++ ":" ++ toString (place + 1) := by
        rw [← unescaped_address, ← unescaped_address]
        exact heq
      have hnumber := (named_injective hsame).2
      omega
  · -- Those of two targets differ in the names.
    refine (List.pairwise_map.mp hnames).imp fun hne meant hleft hright => ?_
    obtain ⟨number, hnumber⟩ := hmem hleft
    obtain ⟨place, hplace⟩ := hmem hright
    exact hne (named_injective (hnumber.symm.trans hplace)).1

/-! ### What a page has -/

/-- The divisions of a page. -/
def divisionsOf (page : String) : List Element := elements "div" (readTags page)

/-- The ids of the divisions of a page. -/
def idsOf (page : String) : List String :=
  (divisionsOf page).filterMap fun division => division.start.value? "id"

/-- The headings that can be linked to: links with a name. -/
def headingsOf (page : String) : List Element :=
  (elements "a" (readTags page)).filter fun heading => (heading.start.value? "name").isSome

/-- The names of these headings. -/
def anchorsOf (page : String) : List String :=
  (headingsOf page).filterMap fun heading => heading.start.value? "name"

/-- The rows of the first table of a page, without its heading. -/
def summaryRows (page : String) : List Element :=
  match elements "table" (readTags page) with
  | [] => []
  | table :: _ => (elements "tr" table.inner).tail

/-! ### Where these are among the tags -/

/-- The names of the tags that a page has but once. -/
def frameNames : List String :=
  ["html", "head", "title", "/title", "style", "/style", "script", "/script", "/head", "body", "h1",
    "/h1", "/body", "/html"]

/-- The cells of a row are no links. -/
theorem names_cellTags (target : Target) : ∀ tag ∈ cellTags target, tag.name ∈ ["td"] := by
  simp only [cellTags, List.forall_mem_cons, List.forall_mem_flatMap]
  simp

/-- The row of a target has cells and a link. -/
theorem names_summaryRow (target : Target) :
    ∀ tag ∈ (summaryRow target).inner, tag.name ∈ ["td", "a", "/a"] := by
  have hlink : ∀ tag ∈ (⟨"td", [], ""⟩ :: (targetLink target).tags ⟨"/a", [], ""⟩ : List Tag),
      tag.name ∈ ["td", "a", "/a"] := by
    simp [targetLink, Element.tags]
  refine List.forall_mem_append.mpr ⟨hlink, fun tag htag => ?_⟩
  exact List.mem_append_left ["a", "/a"] (names_cellTags target tag htag)

/-- The table at the top has rows of cells. -/
theorem names_summaryTable (targets : List Target) :
    ∀ tag ∈ (summaryTable targets).inner, tag.name ∈ ["th", "tr", "/tr", "td", "a", "/a"] := by
  have hcolumns : ∀ tag ∈ columns.tags ⟨"/tr", [], "\n"⟩,
      tag.name ∈ ["th", "tr", "/tr", "td", "a", "/a"] := by
    simp [columns, Element.tags]
  have hrow : ∀ target, ∀ tag ∈ (summaryRow target).tags ⟨"/tr", [], "\n"⟩,
      tag.name ∈ ["th", "tr", "/tr", "td", "a", "/a"] := by
    intro target
    rw [Element.tags, List.forall_mem_append, List.forall_mem_cons]
    refine ⟨⟨by simp [summaryRow], fun tag htag => ?_⟩, by simp⟩
    exact List.mem_append_right ["th", "tr", "/tr"] (names_summaryRow target tag htag)
  exact List.forall_mem_append.mpr
    ⟨hcolumns, List.forall_mem_flatMap.mpr fun target _ => hrow target⟩

/-- A table of instructions has rows of cells, too. -/
theorem names_operationsTags (insts : List Instruction) :
    ∀ tag ∈ operationsTags insts, tag.name ∈ ["table", "tr", "th", "td", "/tr", "/table"] := by
  simp only [operationsTags, operationTags, List.forall_mem_append, List.forall_mem_flatMap]
  simp

/-- Behind its link a line has no other. -/
theorem names_contentTags (row : Row) : ∀ tag ∈ row.contentTags,
    tag.name ∈ ["span", "/span", "table", "tr", "th", "td", "/tr", "/table"] := by
  unfold Row.contentTags
  rw [List.forall_mem_append]
  refine ⟨by simp, ?_⟩
  cases row.operations with
  | none => simp
  | some insts =>
      intro tag htag
      exact List.mem_append_right ["span", "/span"] (names_operationsTags insts tag htag)

/-- No line has another in it. -/
theorem names_row (row : Row) : ∀ tag ∈ row.element.inner,
    tag.name ∈ ["a", "/a", "span", "/span", "table", "tr", "th", "td", "/tr", "/table"] := by
  have hlink : ∀ tag ∈ row.link.tags ⟨"/a", [], ""⟩,
      tag.name ∈ ["a", "/a", "span", "/span", "table", "tr", "th", "td", "/tr", "/table"] := by
    simp [Row.link, Element.tags]
  refine List.forall_mem_append.mpr ⟨hlink, fun tag htag => ?_⟩
  exact List.mem_append_right ["a", "/a"] (names_contentTags row tag htag)

/-- The heading above a source has no other link in it. -/
theorem names_heading (name : String) :
    ∀ tag ∈ (heading name).inner, tag.name ∈ ["h2", "/h2"] := by
  simp [heading]

/-- Before the table at the top there are only tags that a page has once. -/
theorem hasElements_opening {name : String} (hname : name ∉ frameNames) : HasElements name
    (openingTags styleSheet (String.join (clickProgram.map (· ++ "\n")))) [] := by
  have hnames : ∀ style program : String, ∀ tag ∈ openingTags style program,
      tag.name ∈ frameNames := by simp [openingTags, frameNames]
  exact .of_names (hnames styleSheet _) hname

/-- A page has the elements of its parts, unless they are those that hold all of it. -/
theorem hasElements_pageTags {name : String} (sources : Sources) (showOps : Bool)
    {targets : List Target} {inTable : List Element} {inHeading : Target → List Element}
    {inRow : Row → List Element} (hname : name ∉ frameNames)
    (htable : HasElements name ((summaryTable targets).tags ⟨"/table", [], "\n"⟩) inTable)
    (hheading : ∀ target : Target,
      HasElements name ((heading target.name).tags ⟨"/a", [], "\n"⟩) (inHeading target))
    (hrow : ∀ row : Row, HasElements name (row.element.tags ⟨"/div", [], "\n"⟩) (inRow row)) :
    HasElements name (pageTags sources showOps targets)
      (inTable ++ targets.flatMap fun target =>
        inHeading target ++ (rowsOf sources showOps target).flatMap inRow) := by
  have hclosing : HasElements name [⟨"/body", [], "\n"⟩, ⟨"/html", [], "\n"⟩] [] := by
    have hnames : ∀ tag ∈ ([⟨"/body", [], "\n"⟩, ⟨"/html", [], "\n"⟩] : List Tag),
        tag.name ∈ frameNames := by simp [frameNames]
    exact .of_names hnames hname
  have hsources := HasElements.flatMap fun target (_ : target ∈ targets) =>
    (hheading target).append
      (.flatMap fun row (_ : row ∈ rowsOf sources showOps target) => hrow row)
  have hall := (((hasElements_opening hname).append htable).append hsources).append hclosing
  rwa [List.append_nil] at hall

section Found

variable {sources : Sources} {showOps : Bool} {targets : List Target} {page : String}
  (h : Tagged page (pageTags sources showOps targets))
include h

/-- The divisions of a page are the lines of all sources. -/
theorem divisionsOf_eq :
    divisionsOf page
      = targets.flatMap fun target => (rowsOf sources showOps target).map Row.element := by
  have htable : HasElements "div" ((summaryTable targets).tags ⟨"/table", [], "\n"⟩) [] :=
    .inner (show "table" ≠ "div" by decide) (by decide)
      (.of_names (names_summaryTable targets) (by decide))
  have hheading : ∀ target : Target,
      HasElements "div" ((heading target.name).tags ⟨"/a", [], "\n"⟩) [] :=
    fun target => .inner (show "a" ≠ "div" by decide) (by decide)
      (.of_names (names_heading target.name) (by decide))
  have hrow : ∀ row : Row,
      HasElements "div" (row.element.tags ⟨"/div", [], "\n"⟩) [row.element] :=
    fun row => .element rfl rfl (names_row row) (by decide) (by decide)
  have hall := hasElements_pageTags sources showOps (by decide) htable hheading hrow
  rw [divisionsOf, h.readTags_eq, hall.elements_eq]
  simp only [List.map_eq_flatMap]
  rfl

/-- The rows of the table at the top are those of the targets. -/
theorem summaryRows_eq : summaryRows page = targets.map summaryRow := by
  have htable : HasElements "table"
      (openingTags styleSheet (String.join (clickProgram.map (· ++ "\n")))
        ++ (summaryTable targets).tags ⟨"/table", [], "\n"⟩) [summaryTable targets] :=
    (hasElements_opening (by decide)).append
      (.element rfl rfl (names_summaryTable targets) (by decide) (by decide))
  have hrows : HasElements "tr" (summaryTable targets).inner
      (columns :: targets.map summaryRow) := by
    have hcolumns : HasElements "tr" (columns.tags ⟨"/tr", [], "\n"⟩) [columns] := by
      have hnames : ∀ tag ∈ columns.inner, tag.name ∈ ["th"] := by simp [columns]
      exact .element rfl rfl hnames (by decide) (by decide)
    rw [List.map_eq_flatMap]
    exact hcolumns.append (.flatMap fun target _ =>
      .element rfl rfl (names_summaryRow target) (by decide) (by decide))
  -- What follows the table may have other tables, and the first one counts.
  unfold summaryRows
  rw [h.readTags_eq, pageTags, List.append_assoc, htable]
  show (elements "tr" (summaryTable targets).inner).tail = _
  rw [hrows.elements_eq]
  rfl

/-- The headings of a page are those above the sources. -/
theorem headingsOf_eq : headingsOf page = targets.map fun target => heading target.name := by
  have hempty : ∀ {link : Element}, link.start.name = "a" → link.inner = [] →
      HasElements "a" (link.tags ⟨"/a", [], ""⟩) [link] := by
    intro link hname hinner
    have hnames : ∀ tag ∈ link.inner, tag.name ∈ ([] : List String) := by simp [hinner]
    exact .element hname rfl hnames (by decide) (by decide)
  have htable : HasElements "a" ((summaryTable targets).tags ⟨"/table", [], "\n"⟩)
      (targets.flatMap fun target => [targetLink target]) := by
    have hcolumns : HasElements "a" (columns.tags ⟨"/tr", [], "\n"⟩) [] := by
      have hnames : ∀ tag ∈ columns.inner, tag.name ∈ ["th"] := by simp [columns]
      exact .inner (show "tr" ≠ "a" by decide) (by decide) (.of_names hnames (by decide))
    have hrow : ∀ target : Target, HasElements "a"
        ((summaryRow target).tags ⟨"/tr", [], "\n"⟩) [targetLink target] := by
      intro target
      have hlink : HasElements "a" ((targetLink target).tags ⟨"/a", [], ""⟩) [targetLink target] :=
        hempty rfl rfl
      have hcell : HasElements "a"
          (⟨"td", [], ""⟩ :: (targetLink target).tags ⟨"/a", [], ""⟩) [targetLink target] :=
        .cons (by decide) hlink
      exact .inner (show "tr" ≠ "a" by decide) (by decide)
        (hcell.append (.of_names (names_cellTags target) (by decide)))
    exact .inner (show "table" ≠ "a" by decide) (by decide)
      (hcolumns.append (.flatMap fun target _ => hrow target))
  have hheading : ∀ target : Target, HasElements "a"
      ((heading target.name).tags ⟨"/a", [], "\n"⟩) [heading target.name] :=
    fun target => .element rfl rfl (names_heading target.name) (by decide) (by decide)
  have hrow : ∀ row : Row,
      HasElements "a" (row.element.tags ⟨"/div", [], "\n"⟩) [row.link] := by
    intro row
    have hlink : HasElements "a" (row.link.tags ⟨"/a", [], ""⟩) [row.link] := hempty rfl rfl
    exact .inner (show "div" ≠ "a" by decide) (by decide)
      (hlink.append (.of_names (names_contentTags row) (by decide)))
  have hall := hasElements_pageTags sources showOps (by decide) htable hheading hrow
  -- Of all these links only the headings have names.
  have htarget : ∀ target : Target, (targetLink target).start.value? "name" = none := fun _ => rfl
  have hline : ∀ row : Row, row.link.start.value? "name" = none := fun _ => rfl
  have hname : ∀ name, (heading name).start.value? "name" = some (escaped name) := fun _ => rfl
  have hnone : ∀ {α : Type} (members : List α),
      members.flatMap (fun _ => ([] : List Element)) = [] :=
    fun members => List.flatMap_eq_nil_iff.mpr fun _ _ => rfl
  rw [headingsOf, h.readTags_eq, hall.elements_eq]
  simp [List.filter_flatMap, htarget, hline, hname, hnone, List.map_eq_flatMap]

end Found

/-- The ids of the lines of a source are their addresses. -/
theorem ids_rowsOf (sources : Sources) (showOps : Bool) (target : Target) :
    ((rowsOf sources showOps target).map Row.element).filterMap (·.start.value? "id")
      = addresses sources target := by
  have hid : ∀ row : Row, row.element.start.value? "id" = some (address row.name row.number) :=
    fun _ => rfl
  unfold rowsOf addresses
  cases sources target.name with
  | error fault => rfl
  | ok source =>
      dsimp only
      rw [List.range_eq_range', ← List.zipIdx_map_snd, rows, List.mapIdx_eq_zipIdx_map,
        List.map_map, List.map_map, List.filterMap_map]
      simp only [Function.comp_def, hid]
      rw [List.filterMap_eq_map']
      rfl

/-- A line has a link to itself, and no other. -/
theorem links_row (row : Row) : links row.element.inner = ["#" ++ row.division.id] := by
  have hlink : links (row.link.tags ⟨"/a", [], ""⟩) = ["#" ++ row.division.id] := rfl
  show links (row.link.tags ⟨"/a", [], ""⟩ ++ row.contentTags) = _
  rw [links_append, hlink, links_eq_nil (names_contentTags row) (by decide), List.append_nil]

/-- The row of a target has a link to its heading, and no other. -/
theorem links_summaryRow (target : Target) :
    links (summaryRow target).inner = ["#" ++ escaped target.name] := by
  have hlink : links (⟨"td", [], ""⟩ :: (targetLink target).tags ⟨"/a", [], ""⟩)
      = ["#" ++ escaped target.name] := rfl
  show links (⟨"td", [], ""⟩ :: (targetLink target).tags ⟨"/a", [], ""⟩ ++ cellTags target) = _
  rw [links_append, hlink, links_eq_nil (names_cellTags target) (by decide), List.append_nil]

/-- **Links and addresses are unambiguous.** Take targets with distinct names, whatever is in these.
There is a page on them exactly if all their sources can be read and no number that it shows is too
long to be written. Of each page that there is, read by its tags alone:

* The ids of its divisions are the addresses of all lines of all targets, in order. No two of them
  are the same, neither as they are written nor in what they mean.
* Each division has one link in it, to its own id.
* Below its heading, the table at the top has one row for each target, in order, with one link.
* There is one heading for each target, in order, with the name of the target as its text, and with
  the name that the link of this target refers to. No two headings have the same. -/
theorem text_unambiguous (sources : Sources) (showOps : Bool) {targets : List Target}
    (hnames : (targets.map (·.name)).Nodup) :
    ((∃ page, text sources showOps targets = .ok page) ↔
      ∀ target ∈ targets, ∃ source, sources target.name = .ok source ∧
        target.file.Writable showOps (lines source).length) ∧
    ∀ page, text sources showOps targets = .ok page →
      (idsOf page = targets.flatMap (addresses sources) ∧ Distinct (idsOf page)) ∧
      (∀ division ∈ divisionsOf page, ∃ id,
        division.start.value? "id" = some id ∧ links division.inner = ["#" ++ id]) ∧
      (summaryRows page).map (fun row => links row.inner)
        = targets.map (fun target => ["#" ++ escaped target.name]) ∧
      (headingsOf page).map Element.text = targets.map (fun target => escaped target.name) ∧
      anchorsOf page = targets.map (fun target => escaped target.name) ∧
      Distinct (anchorsOf page) := by
  refine ⟨exists_text_iff sources showOps targets, fun page hpage => ?_⟩
  have htagged := tagged_text hpage
  have hids : idsOf page = targets.flatMap (addresses sources) := by
    rw [idsOf, divisionsOf_eq htagged, List.filterMap_flatMap]
    simp only [ids_rowsOf]
  have hanchors : anchorsOf page = targets.map (fun target => escaped target.name) := by
    rw [anchorsOf, headingsOf_eq htagged, List.filterMap_map]
    exact congrFun List.filterMap_eq_map' targets
  refine ⟨⟨hids, ?_⟩, ?_, ?_, ?_, hanchors, ?_⟩
  · rw [hids]
    exact distinct_addresses sources hnames
  · intro division hdivision
    rw [divisionsOf_eq htagged] at hdivision
    obtain ⟨target, -, hdivision⟩ := List.mem_flatMap.mp hdivision
    obtain ⟨row, -, rfl⟩ := List.mem_map.mp hdivision
    exact ⟨row.division.id, rfl, links_row row⟩
  · rw [summaryRows_eq htagged, List.map_map]
    exact List.map_congr_left fun target _ => links_summaryRow target
  · rw [headingsOf_eq htagged, List.map_map]
    refine List.map_congr_left fun target _ => ?_
    simp [Element.text, heading]
  · rw [hanchors]
    refine .of_meant ?_
    rw [List.map_map]
    simpa only [Function.comp_def, unescaped_escaped] using hnames

/-- A file whose name looks like the address of a line in another one, and a file whose name is full
of delimiters. -/
theorem text_unambiguous_lookalike :
    let targets : List Target :=
      [⟨"a", .empty "a"⟩, ⟨"a:1", .empty "a:1"⟩, ⟨"\"&quot;", .empty "\"&quot;"⟩]
    let sources : Sources := fun _ => .ok "x\ny"
    (targets.map (·.name)).Nodup ∧
    (∀ target ∈ targets, ∃ source, sources target.name = .ok source) ∧
    ∃ page, text sources true targets = .ok page ∧
      idsOf page = ["a:1", "a:2", "a:1:1", "a:1:2", "&quot;&amp;quot;:1", "&quot;&amp;quot;:2"] ∧
      Distinct (idsOf page) ∧
      (summaryRows page).map (fun row => links row.inner)
        = [["#a"], ["#a:1"], ["#&quot;&amp;quot;"]] ∧
      anchorsOf page = ["a", "a:1", "&quot;&amp;quot;"] ∧ Distinct (anchorsOf page) := by
  intro targets sources
  have hnames : (targets.map (·.name)).Nodup := by decide
  have hwritable : ∀ name length, (SourceFile.empty name).Writable true length :=
    fun name length => ⟨fun _ _ _ _ => List.not_mem_nil.elim, fun _ _ _ _ => List.not_mem_nil.elim⟩
  have hsources : ∀ target ∈ targets, ∃ source, sources target.name = .ok source ∧
      target.file.Writable true (lines source).length := by
    simp only [targets, List.forall_mem_cons, List.not_mem_nil, false_implies, implies_true,
      and_true]
    exact ⟨⟨_, rfl, hwritable _ _⟩, ⟨_, rfl, hwritable _ _⟩, ⟨_, rfl, hwritable _ _⟩⟩
  obtain ⟨hexists, hpages⟩ := text_unambiguous sources true hnames
  obtain ⟨page, hpage⟩ := hexists.mpr hsources
  obtain ⟨⟨hids, hdistinct⟩, -, hrows, -, hanchors, hnamed⟩ := hpages page hpage
  have haddresses : targets.flatMap (addresses sources)
      = ["a:1", "a:2", "a:1:1", "a:1:2", "&quot;&amp;quot;:1", "&quot;&amp;quot;:2"] := by
    decide +kernel
  have hwritten : targets.map (fun target => escaped target.name)
      = ["a", "a:1", "&quot;&amp;quot;"] := by
    decide +kernel
  have hlinks : targets.map (fun target => ["#" ++ escaped target.name])
      = [["#a"], ["#a:1"], ["#&quot;&amp;quot;"]] := by
    decide +kernel
  exact ⟨hnames, fun target htarget => (hsources target htarget).imp fun _ h => h.1, page, hpage,
    hids.trans haddresses, hdistinct, hrows.trans hlinks, hanchors.trans hwritten, hnamed⟩

end LineCoverage.Page
