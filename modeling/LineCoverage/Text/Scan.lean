import LineCoverage.Text.Blank

/-!
# `LineCoverage.Text.Scan`: taking a text apart from the left

The records of a trace and the directives of a source are fixed words, runs of
one class of characters, and blanks. Each function here takes one such part off
the front of a text and answers with the rest, or with nothing if the part is
not there. A run is always taken whole. That is no loss in these formats: what
follows a run never begins with a character of its class.

The `_eq_some_iff` theorems say exactly when a part is found.
-/

set_option autoImplicit false

namespace LineCoverage.Text

/-- The rest of a text after the characters of a word, if it begins with them. -/
def after? : List Char → List Char → Option (List Char)
  | [], text => some text
  | _ :: _, [] => none
  | w :: word, c :: text => if w = c then after? word text else none

/-- The rest of a text after a fixed word. -/
def literal? (word : String) (text : List Char) : Option (List Char) := after? word.toList text

/-- The longest run of characters in `among`, one or more, and the rest. -/
def run? (among : Char → Bool) (text : List Char) : Option (List Char × List Char) :=
  match text.takeWhile among with
  | [] => none
  | c :: run => some (c :: run, text.dropWhile among)

/-- The rest of a text after its blanks, one or more. -/
def blanks? (text : List Char) : Option (List Char) := (run? isBlank text).map Prod.snd

/-- A beginning is found exactly where the text is the beginning and the rest. -/
private theorem after?_eq_some_iff (word text rest : List Char) :
    after? word text = some rest ↔ text = word ++ rest := by
  induction word generalizing text with
  | nil => simp [after?]
  | cons w word ih =>
      cases text with
      | nil => simp [after?]
      | cons c text =>
          by_cases h : w = c
          · simp [after?, h, ih]
          · simp [after?, h, Ne.symm h]

/-- A word is found exactly where the text is the word and the rest. -/
theorem literal?_eq_some_iff (word : String) (text rest : List Char) :
    literal? word text = some rest ↔ text = word.toList ++ rest :=
  after?_eq_some_iff word.toList text rest

/-- A run is found exactly where the text is some characters of the class and a rest that does
not begin with one. -/
theorem run?_eq_some_iff (among : Char → Bool) (text run rest : List Char) :
    run? among text = some (run, rest) ↔
      text = run ++ rest ∧ run ≠ [] ∧ (∀ c ∈ run, among c = true) ∧
        ∀ c, rest.head? = some c → among c = false := by
  constructor
  · intro h
    have hsplit := List.takeWhile_append_dropWhile (p := among) (l := text)
    have hall : ∀ c ∈ text.takeWhile among, among c = true := fun c hc =>
      List.all_eq_true.mp List.all_takeWhile c hc
    have hstop : ∀ c, (text.dropWhile among).head? = some c → among c = false := by
      intro c hc
      have hfound := List.head?_dropWhile_not among text
      rw [hc] at hfound
      simpa using hfound
    -- The run and the rest are these two parts, and the run is not empty.
    unfold run? at h
    split at h
    · cases h
    · rename_i c tail htake
      cases h
      rw [htake] at hsplit hall
      exact ⟨hsplit.symm, by simp, hall, hstop⟩
  · -- The class ends exactly where the run does, so both parts are found again.
    rintro ⟨rfl, hne, hall, hstop⟩
    have htake : (run ++ rest).takeWhile among = run := by
      rw [List.takeWhile_append_of_pos hall]
      cases rest with
      | nil => simp
      | cons c rest => simp [hstop c rfl]
    have hdrop : (run ++ rest).dropWhile among = rest := by
      rw [List.dropWhile_append_of_pos hall]
      cases rest with
      | nil => simp
      | cons c rest => simp [hstop c rfl]
    unfold run?
    rw [htake, hdrop]
    cases run with
    | nil => exact absurd rfl hne
    | cons c run => rfl

end LineCoverage.Text
