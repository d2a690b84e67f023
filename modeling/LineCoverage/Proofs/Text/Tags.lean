import LineCoverage.Proofs.Text.Markup
import LineCoverage.Proofs.Text.Pattern

/-!
# `LineCoverage.Proofs.Text.Tags`: reading a page

What a browser makes of a page begins with its tags: where an element starts and
ends, which attributes it has, and the text up to the next tag. `readTags` finds
them in a text by the angle brackets, the blanks and the quotation marks, and
knows nothing of the program that wrote it.

Tags that were written with nothing in them that could be taken for markup
(`Tag.Valid`) are read as they were written (`readTags_writeTags`). So whatever is
asked about the elements of a page can be asked about the tags that it was
written from.
-/

set_option autoImplicit false

namespace LineCoverage.Text

/-! ### Tags -/

/-- A tag, and the text behind it up to the next tag. The tag that ends an element has a slash
before the name. -/
structure Tag where
  name : String
  /-- The attributes, each a key with its value. -/
  attributes : List (String × String)
  text : String
  deriving DecidableEq, Repr

namespace Tag

/-- The value of an attribute. -/
def value? (tag : Tag) (key : String) : Option String := tag.attributes.lookup key

/-- How an attribute is written. -/
def attributeText (pair : String × String) : String := " " ++ pair.1 ++ "=\"" ++ pair.2 ++ "\""

/-- How the attributes of a tag are written. -/
def attributesText (attributes : List (String × String)) : String :=
  String.join (attributes.map attributeText)

/-- What follows the bracket that opens a tag, with the text behind it. -/
def body (tag : Tag) : String := tag.name ++ attributesText tag.attributes ++ ">" ++ tag.text

/-- How a tag is written. -/
def write (tag : Tag) : String := "<" ++ tag.body

/-- The attributes in a text that was cut at the quotation marks. A key stands in front of the first
one, with a blank and an equals sign, and its value in front of the second one. -/
def readAttributes : List (List Char) → List (String × String)
  | key :: value :: rest =>
    (String.ofList (key.filter fun c => c ≠ ' ' ∧ c ≠ '='), String.ofList value)
      :: readAttributes rest
  | _ => []

/-- A tag from what follows the bracket that opens it, up to the next one. -/
def read (body : List Char) : Tag :=
  let inside := body.takeWhile (· != '>')
  { name := String.ofList (inside.takeWhile (· != ' '))
    attributes := readAttributes ((inside.dropWhile (· != ' ')).splitOn '"')
    text := String.ofList (body.dropWhile (· != '>')).tail }

end Tag

/-- The tags of a text. -/
def readTags (text : String) : List Tag := ((text.toList.splitOn '<').drop 1).map Tag.read

/-- Tags as they are written. -/
def writeTags (tags : List Tag) : String := String.join (tags.map Tag.write)

/-- Tags and further tags. -/
theorem writeTags_append (left right : List Tag) :
    writeTags (left ++ right) = writeTags left ++ writeTags right := by
  rw [writeTags, List.map_append, String.join_append]
  rfl

/-! ### Reading what was written -/

/-- A text that may be the name of a tag or the key of an attribute. -/
def IsWord (text : List Char) : Prop := ∀ c ∈ text, c ≠ ' ' ∧ c ≠ '=' ∧ isDelimiter c = false

instance (text : List Char) : Decidable (IsWord text) :=
  List.decidableBAll (fun c => c ≠ ' ' ∧ c ≠ '=' ∧ isDelimiter c = false) text

/-- An attribute has nothing in it that could be taken for markup. -/
structure ValidAttribute (pair : String × String) : Prop where
  key : IsWord pair.1.toList
  value : delimiters pair.2.toList = []

/-- A tag has nothing in it that could be taken for markup. -/
structure Tag.Valid (tag : Tag) : Prop where
  name : IsWord tag.name.toList
  attributes : ∀ pair ∈ tag.attributes, ValidAttribute pair
  text : '<' ∉ tag.text.toList

instance (pair : String × String) : Decidable (ValidAttribute pair) :=
  decidable_of_iff (IsWord pair.1.toList ∧ delimiters pair.2.toList = [])
    ⟨fun h => ⟨h.1, h.2⟩, fun h => ⟨h.key, h.value⟩⟩

instance (tag : Tag) : Decidable tag.Valid :=
  decidable_of_iff (IsWord tag.name.toList ∧ (∀ pair ∈ tag.attributes, ValidAttribute pair)
      ∧ '<' ∉ tag.text.toList)
    ⟨fun h => ⟨h.1, h.2.1, h.2.2⟩, fun h => ⟨h.name, h.attributes, h.text⟩⟩

/-- A text without delimiters has no bracket and no quotation mark. -/
theorem notMem_of_delimiters {c : Char} {text : List Char} (h : delimiters text = [])
    (hc : isDelimiter c = true) : c ∉ text :=
  fun hmem => List.filter_eq_nil_iff.mp h c hmem hc

/-- A text without delimiters opens no tag. -/
theorem notMem_of_contained {text : String} (h : Contained text []) : '<' ∉ text.toList :=
  notMem_of_delimiters h.delimiters (by decide)

/-- Nor does a text that is given by its characters, if the bracket is not among them. -/
theorem notMem_ofList {chars : List Char} (h : chars.contains '<' = false) :
    '<' ∉ (String.ofList chars).toList := by
  rw [String.toList_ofList]
  simpa using h

/-- An attribute is valid with a contained value. -/
theorem valid_attribute {key value : String} (hkey : IsWord key.toList)
    (hvalue : Contained value []) : ValidAttribute (key, value) :=
  ⟨hkey, hvalue.delimiters⟩

/-- A tag is valid with attributes that are, where its text opens no tag. -/
theorem valid_tag {name text : String} {attributes : List (String × String)}
    (hname : IsWord name.toList) (hattributes : ∀ pair ∈ attributes, ValidAttribute pair)
    (htext : '<' ∉ text.toList) : Tag.Valid ⟨name, attributes, text⟩ :=
  ⟨hname, hattributes, htext⟩

/-- A tag without attributes is valid with a contained text. -/
theorem valid_bare {name text : String} (hname : IsWord name.toList)
    (htext : Contained text []) : Tag.Valid ⟨name, [], text⟩ :=
  valid_tag hname (by decide) (notMem_of_contained htext)

section Attributes

variable {attributes : List (String × String)} (h : ∀ pair ∈ attributes, ValidAttribute pair)
include h

/-- Between the brackets of a tag there is no bracket. -/
theorem notMem_attributesText {c : Char} (hc : c = '<' ∨ c = '>') :
    c ∉ (Tag.attributesText attributes).toList := by
  have hdelimiter : isDelimiter c = true := by rcases hc with rfl | rfl <;> decide
  have hmarks : c ≠ ' ' ∧ c ≠ '=' ∧ c ≠ '"' := by rcases hc with rfl | rfl <;> decide
  unfold Tag.attributesText
  rw [String.toList_join, List.flatMap_map]
  intro hmem
  obtain ⟨pair, hpair, hmem⟩ := List.mem_flatMap.mp hmem
  have hkey : c ∉ pair.1.toList := by
    intro hin
    rw [((h pair hpair).key c hin).2.2] at hdelimiter
    cases hdelimiter
  have hvalue : c ∉ pair.2.toList := notMem_of_delimiters (h pair hpair).value hdelimiter
  simp [Tag.attributeText, hkey, hvalue, hmarks] at hmem

/-- Attributes are read as they were written. -/
theorem readAttributes_attributesText :
    Tag.readAttributes ((Tag.attributesText attributes).toList.splitOn '"') = attributes := by
  induction attributes with
  | nil => rfl
  | cons first rest ih =>
      obtain ⟨⟨hkey, hvalue⟩, hrest⟩ := List.forall_mem_cons.mp h
      obtain ⟨key, value⟩ := first
      have htext : (Tag.attributesText ((key, value) :: rest)).toList
          = (' ' :: key.toList ++ ['=']) ++ '"' :: (value.toList
              ++ '"' :: (Tag.attributesText rest).toList) := by
        simp [Tag.attributesText, Tag.attributeText]
      have hquote : '"' ∉ ' ' :: key.toList ++ ['='] := by
        have hin : '"' ∉ key.toList := fun hmem => by cases (hkey _ hmem).2.2
        simp [hin]
      -- The blank and the equals sign are all that is taken from the key.
      have hfilter : (' ' :: key.toList ++ ['=']).filter (fun c => c ≠ ' ' ∧ c ≠ '=')
          = key.toList := by
        have hall : key.toList.filter (fun c => c ≠ ' ' ∧ c ≠ '=') = key.toList :=
          List.filter_eq_self.mpr fun c hc => by simp [(hkey c hc).1, (hkey c hc).2.1]
        simpa using hall
      rw [htext, List.splitOn_append_cons_self, List.splitOn_eq_singleton hquote,
        List.splitOn_append_cons_self,
        List.splitOn_eq_singleton (notMem_of_delimiters hvalue (by decide)),
        List.singleton_append, List.singleton_append, Tag.readAttributes, ih hrest, hfilter,
        String.ofList_toList, String.ofList_toList]

end Attributes

/-- Behind its bracket a tag is read as it was written. -/
theorem Tag.Valid.read_eq {tag : Tag} (h : tag.Valid) :
    Tag.read tag.body.toList = tag := by
  have hclose : ∀ c ∈ tag.name.toList ++ (attributesText tag.attributes).toList,
      (c != '>') = true := by
    intro c hc
    rw [bne_iff_ne]
    rintro rfl
    rcases List.mem_append.mp hc with hname | hattributes
    · cases (h.name _ hname).2.2
    · exact notMem_attributesText h.attributes (.inr rfl) hattributes
  have hblank : ∀ c ∈ tag.name.toList, (c != ' ') = true := by
    intro c hc
    exact bne_iff_ne.mpr (h.name c hc).1
  -- The name ends with the blank in front of the first attribute, or with the tag.
  have hstops : Stops (· != ' ') (attributesText tag.attributes).toList := by
    cases tag.attributes with
    | nil => intro c hc; cases hc
    | cons first rest =>
        have htext : (attributesText (first :: rest)).toList
            = ' ' :: (first.1 ++ "=\"" ++ first.2 ++ "\"" ++ attributesText rest).toList := by
          simp [attributesText, attributeText]
        rw [htext]
        exact stops_cons (by simp) _
  have hclosed : Stops (· != '>') ('>' :: tag.text.toList) := stops_cons (by simp) _
  have htext : tag.body.toList = (tag.name.toList ++ (attributesText tag.attributes).toList)
      ++ '>' :: tag.text.toList := by simp [body]
  unfold Tag.read
  dsimp only
  rw [htext, takeWhile_append_of_stops hclose hclosed, dropWhile_append_of_stops hclose hclosed,
    takeWhile_append_of_stops hblank hstops, dropWhile_append_of_stops hblank hstops,
    readAttributes_attributesText h.attributes, List.tail_cons, String.ofList_toList,
    String.ofList_toList]

/-- No tag opens within a tag or the text behind it. -/
theorem Tag.Valid.notMem_body {tag : Tag} (h : tag.Valid) : '<' ∉ tag.body.toList := by
  have hname : '<' ∉ tag.name.toList := fun hmem => by cases (h.name _ hmem).2.2
  have hattributes := notMem_attributesText h.attributes (.inl rfl)
  simp [body, hname, hattributes, h.text]

/-- **Tags are read as they were written.** -/
theorem readTags_writeTags {tags : List Tag} (h : ∀ tag ∈ tags, tag.Valid) :
    readTags (writeTags tags) = tags := by
  have hsplit : (writeTags tags).toList.splitOn '<'
      = [] :: tags.map fun tag => tag.body.toList := by
    -- From the right: the cut in front of the last tag leaves the earlier ones as they are.
    induction tags using List.reverseRecOn with
    | nil => rfl
    | append_singleton earlier last ih =>
        obtain ⟨hearlier, hlast⟩ := List.forall_mem_append.mp h
        have htext : (writeTags (earlier ++ [last])).toList
            = (writeTags earlier).toList ++ '<' :: last.body.toList := by
          rw [writeTags_append, String.toList_append]
          simp [writeTags, Tag.write]
        rw [htext, List.splitOn_append_cons_self, ih hearlier,
          List.splitOn_eq_singleton (hlast last (List.mem_singleton_self last)).notMem_body,
          List.map_append]
        rfl
  have hread : tags.map (Tag.read ∘ fun tag => tag.body.toList) = tags.map id :=
    List.map_congr_left fun tag htag => (h tag htag).read_eq
  rw [readTags, hsplit, List.drop_one, List.tail_cons, List.map_map, hread, List.map_id]

/-- A text that was written from tags without anything in them that could be taken for markup. -/
structure Tagged (text : String) (tags : List Tag) : Prop where
  text_eq : text = writeTags tags
  valid : ∀ tag ∈ tags, tag.Valid

namespace Tagged

variable {text left right : String} {tags other : List Tag}

/-- These tags are found in it. -/
theorem readTags_eq (h : Tagged text tags) : readTags text = tags := by
  rw [h.text_eq]
  exact readTags_writeTags h.valid

/-- A text and a further text. -/
theorem append (hleft : Tagged left tags) (hright : Tagged right other) :
    Tagged (left ++ right) (tags ++ other) where
  text_eq := by rw [hleft.text_eq, hright.text_eq, writeTags_append]
  valid := List.forall_mem_append.mpr ⟨hleft.valid, hright.valid⟩

/-- Texts one after another, each with the tags that belong to its member of a list. -/
theorem join {α : Type} {tags : α → List Tag} {members : List α} {texts : List String}
    (h : List.Forall₂ (fun member text => Tagged text (tags member)) members texts) :
    Tagged (String.join texts) (members.flatMap tags) := by
  induction h with
  | nil => exact ⟨rfl, fun tag htag => absurd htag List.not_mem_nil⟩
  | cons hfirst _ ih =>
      rw [String.join_cons]
      exact hfirst.append ih

/-- The texts of the members of a list. -/
theorem join_map {α : Type} {tags : α → List Tag} {members : List α} {text : α → String}
    (h : ∀ member ∈ members, Tagged (text member) (tags member)) :
    Tagged (String.join (members.map text)) (members.flatMap tags) :=
  join (List.forall₂_map_right_iff.mpr (List.forall₂_same.mpr h))

end Tagged

/-! ### Elements -/

/-- An element without elements of its own name in it, by the tag that it starts with and the tags
in it. -/
structure Element where
  start : Tag
  inner : List Tag
  deriving DecidableEq, Repr

namespace Element

/-- The text in an element, without the tags. -/
def text (element : Element) : String :=
  element.start.text ++ String.join (element.inner.map (·.text))

/-- The tags of an element, with the one that ends it. -/
def tags (element : Element) (last : Tag) : List Tag := element.start :: element.inner ++ [last]

end Element

/-- The elements with a name. Each goes up to the next tag that ends an element with that name. -/
def elements (name : String) : List Tag → List Element
  | [] => []
  | tag :: rest =>
    if tag.name = name then
      ⟨tag, rest.takeWhile fun other => other.name != "/" ++ name⟩ :: elements name rest
    else elements name rest

/-- The links in some tags, by where they lead. -/
def links (tags : List Tag) : List String :=
  tags.filterMap fun tag => if tag.name = "a" then tag.value? "href" else none

/-- Some tags have the given elements, whatever follows them. -/
def HasElements (name : String) (tags : List Tag) (found : List Element) : Prop :=
  ∀ rest, elements name (tags ++ rest) = found ++ elements name rest

namespace HasElements

variable {name : String} {tags left right : List Tag} {found other : List Element}

/-- These are all if nothing follows. -/
theorem elements_eq (h : HasElements name tags found) : elements name tags = found := by
  have hnil := h []
  rwa [List.append_nil, elements, List.append_nil] at hnil

/-- Tags with other names have none. -/
theorem of_names {names : List String} (h : ∀ tag ∈ tags, tag.name ∈ names)
    (hname : name ∉ names) : HasElements name tags [] := by
  intro rest
  induction tags with
  | nil => rfl
  | cons tag tags ih =>
      obtain ⟨hfirst, hrest⟩ := List.forall_mem_cons.mp h
      have hne : tag.name ≠ name := by
        rintro rfl
        exact hname hfirst
      rw [List.cons_append, elements, if_neg hne, ih hrest]

/-- A tag with another name changes nothing. -/
theorem cons {tag : Tag} (htag : tag.name ≠ name) (h : HasElements name tags found) :
    HasElements name (tag :: tags) found := by
  intro rest
  rw [List.cons_append, elements, if_neg htag, h]

/-- Tags and further tags. -/
theorem append (hleft : HasElements name left found) (hright : HasElements name right other) :
    HasElements name (left ++ right) (found ++ other) := by
  intro rest
  rw [List.append_assoc, hleft, hright, List.append_assoc]

/-- The tags of several things, one thing after another. -/
theorem flatMap {α : Type} {members : List α} {tags : α → List Tag} {found : α → List Element}
    (h : ∀ member ∈ members, HasElements name (tags member) (found member)) :
    HasElements name (members.flatMap tags) (members.flatMap found) := by
  induction members with
  | nil => exact fun rest => rfl
  | cons first rest ih =>
      obtain ⟨hfirst, hrest⟩ := List.forall_mem_cons.mp h
      exact hfirst.append (ih hrest)

/-- An element with another name has those that are in it. -/
theorem inner {element : Element} {last : Tag} (hstart : element.start.name ≠ name)
    (hlast : last.name ≠ name) (h : HasElements name element.inner found) :
    HasElements name (element.tags last) found := by
  have hend : HasElements name [last] [] := cons hlast fun rest => rfl
  have hall := (cons hstart h).append hend
  rwa [List.append_nil] at hall

/-- An element has itself, if there is no tag of either name in it. -/
theorem element {element : Element} {last : Tag} {names : List String}
    (hstart : element.start.name = name) (hlast : last.name = "/" ++ name)
    (hinner : ∀ tag ∈ element.inner, tag.name ∈ names) (hname : name ∉ names)
    (hend : "/" ++ name ∉ names) : HasElements name (element.tags last) [element] := by
  intro rest
  have hne : "/" ++ name ≠ name := by
    intro heq
    have hlength := congrArg String.length heq
    rw [String.length_append] at hlength
    have hslash : "/".length = 1 := by decide
    omega
  have hnone : HasElements name [last] [] := cons (hlast ▸ hne) fun rest => rfl
  -- The first tag with a slash before the name is the last one of this element.
  have hclose : (element.inner ++ last :: rest).takeWhile (fun other => other.name != "/" ++ name)
      = element.inner := by
    rw [List.takeWhile_append_of_pos]
    · simp [hlast]
    · intro tag htag
      rw [bne_iff_ne]
      intro heq
      exact hend (heq ▸ hinner tag htag)
  have hrest : element.inner ++ [last] ++ rest = element.inner ++ last :: rest := by simp
  show elements name (element.start :: (element.inner ++ [last] ++ rest)) = _
  rw [elements, if_pos hstart, ((of_names hinner hname).append hnone) rest, hrest, hclose]
  rfl

end HasElements

/-- The links in some tags and in further tags. -/
theorem links_append (left right : List Tag) :
    links (left ++ right) = links left ++ links right :=
  List.filterMap_append

/-- Tags with other names are no links. -/
theorem links_eq_nil {tags : List Tag} {names : List String} (h : ∀ tag ∈ tags, tag.name ∈ names)
    (hname : "a" ∉ names) : links tags = [] := by
  refine List.filterMap_eq_nil_iff.mpr fun tag htag => if_neg ?_
  intro heq
  exact hname (heq ▸ h tag htag)

end LineCoverage.Text
