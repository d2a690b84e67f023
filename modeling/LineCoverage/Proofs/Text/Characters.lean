import LineCoverage.Coverage.Tally
import LineCoverage.Numeral
import LineCoverage.Text.Field
import Mathlib.Data.List.Basic

/-!
# `LineCoverage.Proofs.Text.Characters`: what texts are made of

What is printed goes to a terminal or into a page, and there some characters have
a meaning of their own. Numbers and percentages are written with few characters,
none of which has one (`mem_intText`, `mem_percentText`). A text that is put
together has the characters of its parts and of what stands between them
(`mem_intercalate`), and a field those of its text and spaces (`mem_field`).
-/

set_option autoImplicit false

namespace LineCoverage

namespace Text

variable {c : Char}

/-- A number is written in digits. -/
theorem isDigit_of_mem_natText {n : Nat} (h : c ∈ (toString n).toList) : c.isDigit = true := by
  rw [show toString n = n.repr from rfl, Nat.toList_repr] at h
  exact Nat.isDigit_of_mem_toDigits (by omega) (by omega) h

/-- Two numbers are not written alike. -/
theorem natText_injective : Function.Injective (toString : Nat → String) := by
  intro n m h
  have hdigits : Nat.toDigits 10 n = Nat.toDigits 10 m := by
    rw [← Nat.toList_repr, ← Nat.toList_repr]
    exact congrArg String.toList h
  rw [← Nat.ofDigitChars_ten_toDigits (n := n), hdigits, Nat.ofDigitChars_ten_toDigits]

/-- A number that may be negative is written in digits, with a sign. -/
theorem mem_intText {n : Int} (h : c ∈ (toString n).toList) : c.isDigit = true ∨ c = '-' := by
  rw [Int.toString_eq_repr, Int.repr_eq_if] at h
  split at h
  · exact .inl (isDigit_of_mem_natText h)
  · rw [String.toList_append, List.mem_append] at h
    rcases h with hsign | hdigits
    · exact .inr (List.mem_singleton.mp hsign)
    · exact .inl (isDigit_of_mem_natText hdigits)

/-- What stands in joined texts stands in one of them, or between them. -/
theorem mem_intercalate {separator : String} {parts : List String}
    (h : c ∈ (separator.intercalate parts).toList) :
    c ∈ separator.toList ∨ ∃ part ∈ parts, c ∈ part.toList := by
  induction parts with
  | nil => simp at h
  | cons first rest ih =>
      cases rest with
      | nil =>
          refine .inr ⟨first, List.mem_singleton_self first, ?_⟩
          simpa [String.toList_intercalate] using h
      | cons second rest =>
          rw [String.intercalate_cons_cons, String.toList_append, String.toList_append,
            List.mem_append, List.mem_append] at h
          rcases h with (hfirst | hseparator) | hlater
          · exact .inr ⟨first, List.mem_cons_self, hfirst⟩
          · exact .inl hseparator
          · rcases ih hlater with hseparator | ⟨part, hpart, hmem⟩
            · exact .inl hseparator
            · exact .inr ⟨part, List.mem_cons_of_mem _ hpart, hmem⟩

/-- In front of a text only spaces are added. -/
theorem mem_justifyRight {width : Nat} {text : List Char} (h : c ∈ justifyRight width text) :
    c = ' ' ∨ c ∈ text := by
  rcases List.mem_append.mp h with hspace | htext
  · exact .inl (List.eq_of_mem_replicate hspace)
  · exact .inr htext

/-- A field has the characters of its text, and spaces. -/
theorem mem_field {width : Int} {text : String} (h : c ∈ (field width text).toList) :
    c = ' ' ∨ c ∈ text.toList := by
  rw [field, String.toList_ofList] at h
  unfold fit at h
  split at h
  · exact .inr h
  split at h
  · rcases mem_justifyRight h with hspace | htext
    · exact .inl hspace
    · exact .inr (List.mem_of_mem_drop htext)
  · exact .inr (List.mem_of_mem_drop h)

end Text

open Text

variable {c : Char}

/-- A number with decimal places is written in digits, with a sign and a point. -/
theorem Binary64.mem_fixed {x : Binary64} {places : Nat} (h : c ∈ (x.fixed places).toList) :
    c.isDigit = true ∨ c = '-' ∨ c = '.' := by
  have hsign : c ∈ (if x.negative then "-" else "").toList → c = '-' := by
    split <;> simp
  have hzero : ∀ count : Nat, c ∈ List.replicate count '0' → c.isDigit = true := by
    intro count hmem
    rw [List.eq_of_mem_replicate hmem]
    decide
  unfold fixed at h
  dsimp only at h
  split at h
  · rw [String.toList_append, List.mem_append] at h
    rcases h with hleft | hwhole
    · exact .inr (.inl (hsign hleft))
    · exact .inl (isDigit_of_mem_natText hwhole)
  · simp only [String.toList_append, String.toList_ofList, List.mem_append] at h
    rcases h with (((hleft | hwhole) | hpoint) | hzeros) | hplaces
    · exact .inr (.inl (hsign hleft))
    · exact .inl (isDigit_of_mem_natText hwhole)
    · exact .inr (.inr (List.mem_singleton.mp hpoint))
    · exact .inl (hzero _ hzeros)
    · exact .inl (isDigit_of_mem_natText hplaces)

/-- A percentage is such a number with its unit, or `n/a`. -/
theorem Tally.mem_percentText {tally : Tally} {places : Nat} {unit text : String} {count : Int}
    (htext : tally.percentText places unit count = .ok text) (h : c ∈ text.toList) :
    c.isDigit = true ∨ c ∈ "-.n/a".toList ∨ c ∈ unit.toList := by
  unfold percentText at htext
  split at htext
  · cases htext
  · cases htext
    have hword : "-.n/a".toList = ['-', '.'] ++ "n/a".toList := by decide
    rw [hword]
    exact .inr (.inl (List.mem_append_right _ h))
  · cases htext
    rw [String.toList_append, List.mem_append] at h
    rcases h with hnumber | hunit
    · rcases Binary64.mem_fixed hnumber with hdigit | rfl | rfl
      · exact .inl hdigit
      · exact .inr (.inl (by decide))
      · exact .inr (.inl (by decide))
    · exact .inr (.inr hunit)

end LineCoverage
