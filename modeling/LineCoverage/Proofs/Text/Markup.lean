import LineCoverage.Proofs.Text.Characters
import LineCoverage.Text.Markup
import Mathlib.Data.List.Forall2
import Mathlib.Data.List.Infix
import Mathlib.Tactic.SplitIfs

/-!
# `LineCoverage.Proofs.Text.Markup`: what foreign text can do in a page

A browser finds the tags and attributes of a page by their delimiters: angle
brackets and quotation marks. Escaped text has none of them
(`delimiters_escape`). An ampersand opens an entity, and in escaped text every
one of them opens one of the five that escaping writes (`entitiesOnly_escape`).
The report's own texts, numbers and words, need no escaping (`Plain`).

`Contained` says both things of a text that is put together from markup and from
texts of either kind: its delimiters are those of the markup, and its ampersands
open entities. It goes from the parts of a page to the whole.

Escaping loses nothing. `unescape` reads the five entities as the characters
that they stand for, and `unescape_escape` says that this gives the text back.
-/

set_option autoImplicit false

namespace LineCoverage.Text

/-! ### Delimiters -/

/-- Whether a character opens or ends a tag or the value of an attribute. -/
def isDelimiter (c : Char) : Bool := c = '<' || c = '>' || c = '"' || c = '\''

/-- The delimiters in a text, in order. -/
def delimiters (text : List Char) : List Char := text.filter isDelimiter

/-- The delimiters of two texts, one after the other. -/
@[simp] theorem delimiters_append (left right : List Char) :
    delimiters (left ++ right) = delimiters left ++ delimiters right :=
  List.filter_append left right

/-- Escaped text has no delimiters. -/
theorem delimiters_escape (text : List Char) : delimiters (escape text) = [] := by
  refine List.filter_eq_nil_iff.mpr fun c hc => ?_
  obtain ⟨hopen, hclose, hdouble, hsingle⟩ := mem_escape hc
  simp [isDelimiter, hopen, hclose, hdouble, hsingle]

/-! ### Entities -/

/-- The five entities that escaping writes. -/
def entities : List String := ["&amp;", "&lt;", "&gt;", "&quot;", "&#x27;"]

/-- Every ampersand in a text opens one of the five entities. -/
def EntitiesOnly (text : List Char) : Prop :=
  ∀ rest, '&' :: rest <:+ text → ∃ name ∈ entities, name.toList <+: '&' :: rest

/-- A text without ampersands has nothing to open. -/
theorem entitiesOnly_of_not_mem {text : List Char} (h : '&' ∉ text) : EntitiesOnly text := by
  intro rest hrest
  exact absurd (hrest.mem List.mem_cons_self) h

/-- An entity that is complete in a text stays complete where another text follows. -/
theorem EntitiesOnly.append {left right : List Char} (hleft : EntitiesOnly left)
    (hright : EntitiesOnly right) : EntitiesOnly (left ++ right) := by
  induction left with
  | nil => exact hright
  | cons c left ih =>
      intro rest hrest
      rcases List.suffix_cons_iff.mp hrest with heq | htail
      · -- The ampersand is the first character, and its entity is in the left text.
        obtain ⟨rfl, rfl⟩ := List.cons.inj heq
        obtain ⟨name, hname, hprefix⟩ := hleft left List.suffix_rfl
        exact ⟨name, hname, hprefix.trans (List.prefix_append ('&' :: left) right)⟩
      · have hrestLeft : EntitiesOnly left := fun rest hrest =>
          hleft rest (hrest.trans (List.suffix_cons c left))
        exact ih hrestLeft rest htail

/-- A character is written as one of the entities or as itself, which is no ampersand. -/
theorem entity_cases (c : Char) :
    (∃ name ∈ entities, entity c = name.toList) ∨ (c ≠ '&' ∧ entity c = [c]) := by
  unfold entity
  split_ifs with hamp hopen hclose hdouble hsingle
  · exact .inl ⟨"&amp;", by decide, rfl⟩
  · exact .inl ⟨"&lt;", by decide, rfl⟩
  · exact .inl ⟨"&gt;", by decide, rfl⟩
  · exact .inl ⟨"&quot;", by decide, rfl⟩
  · exact .inl ⟨"&#x27;", by decide, rfl⟩
  · exact .inr ⟨hamp, rfl⟩

/-- The only ampersand of an entity is its first character. -/
theorem entitiesOnly_of_mem {name : String} (h : name ∈ entities) :
    EntitiesOnly name.toList := by
  have htail : ∀ name ∈ entities, ∃ tail, name.toList = '&' :: tail ∧ '&' ∉ tail := by
    intro name hname
    simp only [entities, List.mem_cons, List.not_mem_nil, or_false] at hname
    rcases hname with rfl | rfl | rfl | rfl | rfl <;> exact ⟨_, rfl, by decide⟩
  obtain ⟨tail, htext, hnot⟩ := htail name h
  intro rest hrest
  rw [htext] at hrest
  rcases List.suffix_cons_iff.mp hrest with heq | hlater
  · exact ⟨name, h, by rw [htext, heq]⟩
  · exact absurd (hlater.mem List.mem_cons_self) hnot

/-- Every ampersand in escaped text opens an entity. -/
theorem entitiesOnly_escape (text : List Char) : EntitiesOnly (escape text) := by
  induction text with
  | nil => exact entitiesOnly_of_not_mem List.not_mem_nil
  | cons c rest ih =>
      have hfirst : EntitiesOnly (entity c) := by
        rcases entity_cases c with ⟨name, hname, hwritten⟩ | ⟨hc, hwritten⟩
        · rw [hwritten]
          exact entitiesOnly_of_mem hname
        · rw [hwritten]
          exact entitiesOnly_of_not_mem (by simp [Ne.symm hc])
      exact hfirst.append ih

/-! ### Reading a text back -/

/-- The text that is meant by an escaped text. An ampersand that opens none of the five entities
stands for itself. -/
def unescape : List Char → List Char
  | '&' :: 'a' :: 'm' :: 'p' :: ';' :: rest => '&' :: unescape rest
  | '&' :: 'l' :: 't' :: ';' :: rest => '<' :: unescape rest
  | '&' :: 'g' :: 't' :: ';' :: rest => '>' :: unescape rest
  | '&' :: 'q' :: 'u' :: 'o' :: 't' :: ';' :: rest => '"' :: unescape rest
  | '&' :: '#' :: 'x' :: '2' :: '7' :: ';' :: rest => '\'' :: unescape rest
  | c :: rest => c :: unescape rest
  | [] => []

/-- A character other than the ampersand stands for itself. -/
theorem unescape_cons {c : Char} (h : c ≠ '&') (rest : List Char) :
    unescape (c :: rest) = c :: unescape rest := by
  rw [unescape] <;> intros <;> simp_all

/-- What a character is written as is read as that character. -/
theorem unescape_entity (c : Char) (rest : List Char) :
    unescape (entity c ++ rest) = c :: unescape rest := by
  unfold entity
  split_ifs with hamp hopen hclose hdouble hsingle
  · exact hamp ▸ rfl
  · exact hopen ▸ rfl
  · exact hclose ▸ rfl
  · exact hdouble ▸ rfl
  · exact hsingle ▸ rfl
  · exact unescape_cons hamp rest

/-- An escaped text is read as that text, whatever follows it. -/
theorem unescape_escape_append (text rest : List Char) :
    unescape (escape text ++ rest) = text ++ unescape rest := by
  induction text with
  | nil => rfl
  | cons c text ih =>
      rw [escape, List.flatMap_cons, ← escape, List.append_assoc, unescape_entity, ih]
      rfl

/-- **Escaping loses nothing.** -/
theorem unescape_escape (text : List Char) : unescape (escape text) = text := by
  have hall := unescape_escape_append text []
  rwa [List.append_nil, unescape, List.append_nil] at hall

/-- Without ampersands a text stands for itself. -/
theorem unescape_of_notMem {text : List Char} (h : '&' ∉ text) : unescape text = text := by
  induction text with
  | nil => rfl
  | cons c rest ih =>
      rw [List.mem_cons, not_or] at h
      rw [unescape_cons (Ne.symm h.1), ih h.2]

/-! ### Texts as they are written -/

/-- A foreign text as it stands in a page. -/
def escaped (text : String) : String := String.ofList (escape text.toList)

/-- The text that is meant by a text in a page. -/
def unescaped (text : String) : String := String.ofList (unescape text.toList)

/-- A foreign text is meant by what is written for it. -/
theorem unescaped_escaped (text : String) : unescaped (escaped text) = text := by
  rw [unescaped, escaped, String.toList_ofList, unescape_escape, String.ofList_toList]

/-- So it is where a text without ampersands follows. -/
theorem unescaped_escaped_append (text : String) {rest : String} (h : '&' ∉ rest.toList) :
    unescaped (escaped text ++ rest) = text ++ rest := by
  refine String.toList_injective ?_
  rw [unescaped, escaped, String.toList_ofList, String.toList_append, String.toList_ofList,
    unescape_escape_append, unescape_of_notMem h, String.toList_append]

/-- No piece, no text. -/
@[simp] theorem writePieces_nil : writePieces [] = "" := rfl

/-- Markup is written as it is. -/
@[simp] theorem writePieces_markup (source : String) (rest : List Piece) :
    writePieces (.markup source :: rest) = source ++ writePieces rest := by
  rw [writePieces, List.flatMap_cons, String.ofList_append, ← writePieces]
  rw [Piece.write, String.ofList_toList]

/-- Foreign text is written escaped. -/
@[simp] theorem writePieces_text (content : String) (rest : List Piece) :
    writePieces (.text content :: rest) = escaped content ++ writePieces rest := by
  rw [writePieces, List.flatMap_cons, String.ofList_append, ← writePieces]
  rfl

/-- Pieces and further pieces. -/
@[simp] theorem writePieces_append (left right : List Piece) :
    writePieces (left ++ right) = writePieces left ++ writePieces right := by
  rw [writePieces, List.flatMap_append, String.ofList_append]
  rfl

/-- The pieces of several parts are written one part after another. -/
theorem writePieces_flatten (parts : List (List Piece)) :
    writePieces parts.flatten = String.join (parts.map writePieces) := by
  induction parts with
  | nil => rfl
  | cons first rest ih =>
      rw [List.flatten_cons, writePieces_append, ih, List.map_cons, String.join_cons]

/-! ### Texts that need no escaping -/

/-- A text without delimiters and ampersands. -/
def Plain (text : List Char) : Prop := ∀ c ∈ text, isDelimiter c = false ∧ c ≠ '&'

instance (text : List Char) : Decidable (Plain text) :=
  List.decidableBAll (fun c => isDelimiter c = false ∧ c ≠ '&') text

/-- A plain text has no delimiters. -/
theorem Plain.delimiters {text : List Char} (h : Plain text) : delimiters text = [] :=
  List.filter_eq_nil_iff.mpr fun c hc => by simp [(h c hc).1]

/-- A plain text has no ampersands. -/
theorem Plain.not_mem {text : List Char} (h : Plain text) : '&' ∉ text :=
  fun hmem => (h '&' hmem).2 rfl

/-- Two plain texts, one after the other. -/
@[simp] theorem plain_append {left right : List Char} :
    Plain (left ++ right) ↔ Plain left ∧ Plain right :=
  List.forall_mem_append

/-- Plain texts with a plain text between them. -/
theorem plain_intercalate {separator : String} {parts : List String}
    (hseparator : Plain separator.toList) (h : ∀ part ∈ parts, Plain part.toList) :
    Plain (separator.intercalate parts).toList := by
  intro c hc
  rcases mem_intercalate hc with hmem | ⟨part, hpart, hmem⟩
  · exact hseparator c hmem
  · exact h part hpart c hmem

/-- A digit needs no escaping. -/
theorem plain_of_isDigit {c : Char} (h : c.isDigit = true) :
    isDelimiter c = false ∧ c ≠ '&' := by
  constructor
  · simp only [isDelimiter, Bool.or_eq_false_iff, decide_eq_false_iff_not]
    refine ⟨⟨⟨?_, ?_⟩, ?_⟩, ?_⟩ <;> rintro rfl <;> exact absurd h (by decide)
  · rintro rfl
    exact absurd h (by decide)

/-- A number is plain. -/
theorem plain_natText (n : Nat) : Plain (toString n).toList :=
  fun _ hc => plain_of_isDigit (isDigit_of_mem_natText hc)

/-- A number with a sign is plain. -/
theorem plain_intText (n : Int) : Plain (toString n).toList := by
  intro c hc
  rcases mem_intText hc with hdigit | rfl
  · exact plain_of_isDigit hdigit
  · decide

/-! ### Contained text -/

/-- A text has the given delimiters, and all of its ampersands open entities. -/
structure Contained (text : String) (frame : List Char) : Prop where
  delimiters : delimiters text.toList = frame
  entities : EntitiesOnly text.toList

namespace Contained

/-- Markup has its own delimiters. -/
theorem markup (source : String) (h : '&' ∉ source.toList) :
    Contained source (Text.delimiters source.toList) :=
  ⟨rfl, entitiesOnly_of_not_mem h⟩

/-- Foreign text has no delimiters where it is escaped. -/
theorem escaped (text : String) : Contained (escaped text) [] where
  delimiters := by rw [Text.escaped, String.toList_ofList, delimiters_escape]
  entities := by
    rw [Text.escaped, String.toList_ofList]
    exact entitiesOnly_escape text.toList

/-- Plain text has no delimiters as it is. -/
theorem plain {text : String} (h : Plain text.toList) : Contained text [] :=
  ⟨h.delimiters, entitiesOnly_of_not_mem h.not_mem⟩

/-- The empty text. -/
theorem empty : Contained "" [] := plain (by decide)

variable {left right : String} {frame other : List Char}

/-- A text and a further text. -/
theorem append (hleft : Contained left frame) (hright : Contained right other) :
    Contained (left ++ right) (frame ++ other) where
  delimiters := by
    rw [String.toList_append, delimiters_append, hleft.delimiters, hright.delimiters]
  entities := by
    rw [String.toList_append]
    exact hleft.entities.append hright.entities

/-- A text that goes on with markup and, behind it, with a text without delimiters. -/
theorem fill (hleft : Contained left frame) (source : String) (h : '&' ∉ source.toList)
    (hright : Contained right []) :
    Contained (left ++ source ++ right) (frame ++ Text.delimiters source.toList) := by
  have hall := (hleft.append (markup source h)).append hright
  rwa [List.append_nil] at hall

/-- Texts one after another, each with the delimiters that belong to its member of a list. -/
theorem join {α : Type} {frame : α → List Char} {members : List α} {texts : List String}
    (h : List.Forall₂ (fun member text => Contained text (frame member)) members texts) :
    Contained (String.join texts) (members.flatMap frame) := by
  induction h with
  | nil => exact empty
  | cons hfirst _ ih =>
      rw [String.join_cons]
      exact hfirst.append ih

/-- The texts of the members of a list. -/
theorem join_map {α : Type} {frame : α → List Char} {members : List α} {text : α → String}
    (h : ∀ member ∈ members, Contained (text member) (frame member)) :
    Contained (String.join (members.map text)) (members.flatMap frame) :=
  join (List.forall₂_map_right_iff.mpr (List.forall₂_same.mpr h))

end Contained

end LineCoverage.Text
