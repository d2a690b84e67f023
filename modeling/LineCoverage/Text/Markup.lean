/-!
# `LineCoverage.Text.Markup`: text inside a page

A page is built from pieces of markup, which the report writes itself, and
pieces of text, which come from file names, sources and disassemblies. Text is
escaped: the five characters with a meaning in markup are written as entities,
so a text can never open a tag or end an attribute.

`mem_escape` says that no character of an escaped text is an angle bracket or a
quotation mark.
-/

set_option autoImplicit false

namespace LineCoverage.Text

/-- The entity of a character that has a meaning in markup; any other stands for itself. -/
def entity (c : Char) : List Char :=
  if c = '&' then "&amp;".toList
  else if c = '<' then "&lt;".toList
  else if c = '>' then "&gt;".toList
  else if c = '"' then "&quot;".toList
  else if c = '\'' then "&#x27;".toList
  else [c]

/-- A text as it is written into markup. -/
def escape (text : List Char) : List Char := text.flatMap entity

/-- A part of a page. -/
inductive Piece where
  /-- Markup of the report's own, written as it is. -/
  | markup (source : String)
  /-- Foreign text, written escaped. -/
  | text (content : String)
  deriving DecidableEq, Repr

/-- How a piece is written. -/
def Piece.write : Piece → List Char
  | .markup source => source.toList
  | .text content => escape content.toList

/-- A page from its pieces in order. -/
def writePieces (pieces : List Piece) : String :=
  String.ofList (pieces.flatMap Piece.write)

/-- An escaped text holds no character that could open a tag or end an attribute. -/
theorem mem_escape {c : Char} {text : List Char} (h : c ∈ escape text) :
    c ≠ '<' ∧ c ≠ '>' ∧ c ≠ '"' ∧ c ≠ '\'' := by
  obtain ⟨source, -, hc⟩ := List.mem_flatMap.mp h
  unfold entity at hc
  split at hc
  · simp at hc
    rcases hc with rfl | rfl | rfl | rfl | rfl <;> decide
  split at hc
  · simp at hc
    rcases hc with rfl | rfl | rfl | rfl <;> decide
  split at hc
  · simp at hc
    rcases hc with rfl | rfl | rfl | rfl <;> decide
  split at hc
  · simp at hc
    rcases hc with rfl | rfl | rfl | rfl | rfl | rfl <;> decide
  split at hc
  · simp at hc
    rcases hc with rfl | rfl | rfl | rfl | rfl | rfl <;> decide
  · obtain rfl := List.mem_singleton.mp hc
    exact ⟨by assumption, by assumption, by assumption, by assumption⟩

end LineCoverage.Text
