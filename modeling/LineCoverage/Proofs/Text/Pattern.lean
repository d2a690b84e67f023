import LineCoverage.Text.DecimalDigit
import LineCoverage.Text.Scan
import Mathlib.Computability.Language

/-!
# `LineCoverage.Proofs.Text.Pattern`: patterns of a text

A pattern is put together from fixed words and from runs of one class of
characters. `word` and `atLeast` are the languages of these two, and a longer
pattern is a product of them. Nothing in a product says where one part ends and
the next begins.

In the formats read here there is only one way. A part that is a run ends where
the next part begins with a character of another class (`Stops`), so two ways to
take a text apart agree on the run and on the rest (`append_inj_of_stops`). The
functions of `Text.Scan` find that way: `run?_eq_some_iff_mem`,
`blanks?_eq_some_iff` and `trimStart_eq_iff` say so of each.

The `mem_…_mul` lemmas turn this into rewriting from the left: to be in a product
is to have the first part found by its scan, and a rest in the other parts. With
them a recogniser that is a sequence of scans becomes the product it stands for.
-/

set_option autoImplicit false

namespace LineCoverage.Text

/-- One fixed text. -/
def word (text : String) : Language Char := {text.toList}

/-- The texts of so many characters or more, all of one class. -/
def atLeast (count : Nat) (among : Char → Bool) : Language Char :=
  {text | count ≤ text.length ∧ ∀ c ∈ text, among c = true}

/-- A text is a word if it has the characters of the word. -/
theorem mem_word {text : List Char} {fixed : String} : text ∈ word fixed ↔ text = fixed.toList :=
  Iff.rfl

/-- A text is a run if it is long enough and its characters are in the class. -/
theorem mem_atLeast {count : Nat} {among : Char → Bool} {text : List Char} :
    text ∈ atLeast count among ↔ count ≤ text.length ∧ ∀ c ∈ text, among c = true :=
  Iff.rfl

instance (count : Nat) (among : Char → Bool) (text : List Char) :
    Decidable (text ∈ atLeast count among) :=
  decidable_of_iff (count ≤ text.length ∧ text.all among = true)
    (and_congr_right fun _ => List.all_eq_true)

/-- A run of one character or more is a run that is not empty. -/
theorem mem_atLeast_one {among : Char → Bool} {text : List Char} :
    text ∈ atLeast 1 among ↔ text ≠ [] ∧ ∀ c ∈ text, among c = true := by
  rw [mem_atLeast, Nat.one_le_iff_ne_zero, ne_eq, List.length_eq_zero_iff]

/-- A run of no characters or more is any text of the class. -/
theorem mem_atLeast_zero {among : Char → Bool} {text : List Char} :
    text ∈ atLeast 0 among ↔ ∀ c ∈ text, among c = true := by
  simp [mem_atLeast]

/-- The characters of one line are those that are no line feed. -/
theorem forall_ne_break_iff {text : List Char} :
    (∀ c ∈ text, (c != '\n') = true) ↔ '\n' ∉ text := by
  simp only [bne_iff_ne, ne_eq]
  exact ⟨fun h hmem => h '\n' hmem rfl, fun h c hc heq => h (heq ▸ hc)⟩

/-- A long run is a run that is not empty. -/
theorem atLeast_one_of_mem {count : Nat} {among : Char → Bool} {text : List Char}
    (h : text ∈ atLeast (count + 1) among) : text ∈ atLeast 1 among := by
  have hlength := h.1
  exact ⟨by omega, h.2⟩

/-- No blank is a digit. -/
theorem isDigit_of_isBlank {c : Char} (h : isBlank c = true) : isDigit c = false := by
  have hall : blanks.all (!isDigit ·) = true := by decide +kernel
  have hblank : (!isDigit c) = true := List.all_eq_true.mp hall c (List.contains_iff_mem.mp h)
  simpa using hblank

/-- No digit is a blank. -/
theorem isBlank_of_isDigit {c : Char} (h : isDigit c = true) : isBlank c = false := by
  cases hblank : isBlank c with
  | false => rfl
  | true =>
      rw [isDigit_of_isBlank hblank] at h
      cases h

/-! ### Where a run ends -/

/-- A text that does not go on with a character of the class. -/
def Stops (among : Char → Bool) (rest : List Char) : Prop :=
  ∀ c, rest.head? = some c → among c = false

/-- A run ends before a character that is not in its class. -/
theorem stops_cons {among : Char → Bool} {c : Char} (h : among c = false) (rest : List Char) :
    Stops among (c :: rest) := by
  intro first hfirst
  cases hfirst
  exact h

/-- A run ends before a run of another class. -/
theorem stops_append {among other : Char → Bool} {run : List Char} (h : run ∈ atLeast 1 other)
    (hother : ∀ c, other c = true → among c = false) (rest : List Char) :
    Stops among (run ++ rest) := by
  cases run with
  | nil => exact absurd rfl (mem_atLeast_one.mp h).1
  | cons c run => exact stops_cons (hother c (h.2 c List.mem_cons_self)) (run ++ rest)

/-- The characters in front of the place where a run ends are the run. -/
theorem takeWhile_append_of_stops {among : Char → Bool} {run rest : List Char}
    (hrun : ∀ c ∈ run, among c = true) (hrest : Stops among rest) :
    (run ++ rest).takeWhile among = run := by
  rw [List.takeWhile_append_of_pos hrun]
  cases rest with
  | nil => simp
  | cons c rest => simp [hrest c rfl]

/-- What follows them is the rest. -/
theorem dropWhile_append_of_stops {among : Char → Bool} {run rest : List Char}
    (hrun : ∀ c ∈ run, among c = true) (hrest : Stops among rest) :
    (run ++ rest).dropWhile among = rest := by
  have hwhole := List.takeWhile_append_dropWhile (p := among) (l := run ++ rest)
  rw [takeWhile_append_of_stops hrun hrest] at hwhole
  exact List.append_cancel_left hwhole

/-- A text is a run and a rest in one way only. -/
theorem append_inj_of_stops {among : Char → Bool} {run other rest remainder : List Char}
    (hrun : ∀ c ∈ run, among c = true) (hother : ∀ c ∈ other, among c = true)
    (hrest : Stops among rest) (hremainder : Stops among remainder)
    (h : run ++ rest = other ++ remainder) : run = other ∧ rest = remainder := by
  have hsame : run = other := by
    rw [← takeWhile_append_of_stops hrun hrest, h, takeWhile_append_of_stops hother hremainder]
  subst hsame
  exact ⟨rfl, List.append_cancel_left h⟩

/-- A text has one last character of a kind. -/
theorem append_cons_inj_of_notMem {c : Char} {front other back rest : List Char} (hback : c ∉ back)
    (hrest : c ∉ rest) (h : front ++ c :: back = other ++ c :: rest) :
    front = other ∧ back = rest := by
  have hrun : ∀ {run : List Char}, c ∉ run → ∀ d ∈ run.reverse, (d != c) = true := by
    intro run hrun d hd
    rw [bne_iff_ne]
    rintro rfl
    exact hrun (List.mem_reverse.mp hd)
  have hstops : ∀ rest, Stops (· != c) (c :: rest) := stops_cons (by simp)
  -- From the right, it is the first one.
  have hreverse : back.reverse ++ c :: front.reverse = rest.reverse ++ c :: other.reverse := by
    simpa using congrArg List.reverse h
  obtain ⟨hback, hfront⟩ := append_inj_of_stops (hrun hback) (hrun hrest) (hstops _) (hstops _)
    hreverse
  exact ⟨List.reverse_injective (List.cons.inj hfront).2, List.reverse_injective hback⟩

/-! ### What a scan finds -/

/-- A run is found exactly where the text is a run and a rest before which it ends. -/
theorem run?_eq_some_iff_mem {among : Char → Bool} {text run rest : List Char} :
    run? among text = some (run, rest) ↔
      text = run ++ rest ∧ run ∈ atLeast 1 among ∧ Stops among rest := by
  rw [run?_eq_some_iff, mem_atLeast_one, and_assoc]
  rfl

/-- A run is found in front of what it ends before. -/
theorem run?_append {among : Char → Bool} {run rest : List Char} (h : run ∈ atLeast 1 among)
    (hrest : Stops among rest) : run? among (run ++ rest) = some (run, rest) :=
  run?_eq_some_iff_mem.mpr ⟨rfl, h, hrest⟩

/-- Blanks are found exactly where the text is a run of them and a rest. -/
theorem blanks?_eq_some_iff {text rest : List Char} :
    blanks? text = some rest ↔
      ∃ gap, text = gap ++ rest ∧ gap ∈ atLeast 1 isBlank ∧ Stops isBlank rest := by
  simp only [blanks?, Option.map_eq_some_iff, Prod.exists, exists_eq_right,
    run?_eq_some_iff_mem]

/-- Blanks are found in front of what they end before. -/
theorem blanks?_append {gap rest : List Char} (h : gap ∈ atLeast 1 isBlank)
    (hrest : Stops isBlank rest) : blanks? (gap ++ rest) = some rest :=
  blanks?_eq_some_iff.mpr ⟨gap, rfl, h, hrest⟩

/-- What is left without the blanks in front is what follows a run of them. -/
theorem trimStart_eq_iff {text rest : List Char} :
    trimStart text = rest ↔
      ∃ gap, text = gap ++ rest ∧ gap ∈ atLeast 0 isBlank ∧ Stops isBlank rest := by
  constructor
  · rintro rfl
    refine ⟨text.takeWhile isBlank, List.takeWhile_append_dropWhile.symm, ?_, ?_⟩
    · exact mem_atLeast_zero.mpr fun c hc => List.all_eq_true.mp List.all_takeWhile c hc
    · intro c hc
      have hstop := List.head?_dropWhile_not isBlank text
      rw [trimStart] at hc
      rw [hc] at hstop
      simpa using hstop
  · rintro ⟨gap, rfl, hgap, hrest⟩
    exact dropWhile_append_of_stops hgap.2 hrest

/-- Blanks in front are dropped up to what they end before. -/
theorem trimStart_append {gap rest : List Char} (h : gap ∈ atLeast 0 isBlank)
    (hrest : Stops isBlank rest) : trimStart (gap ++ rest) = rest :=
  trimStart_eq_iff.mpr ⟨gap, rfl, h, hrest⟩

/-- A text is the blanks in front of it and what is left without them. -/
theorem exists_append_trimStart (text : List Char) :
    ∃ gap ∈ atLeast 0 isBlank, text = gap ++ trimStart text := by
  obtain ⟨gap, htext, hgap, -⟩ := trimStart_eq_iff.mp (rfl : trimStart text = trimStart text)
  exact ⟨gap, hgap, htext⟩

/-! ### Scans and products -/

/-- The texts of a language do not go on with a character of the class. -/
def Ends (among : Char → Bool) (language : Language Char) : Prop :=
  ∀ rest ∈ language, Stops among rest

/-- A run ends before a word that begins with a character of another class. -/
theorem ends_word_mul {among : Char → Bool} {fixed : String} {first : Char} {others : List Char}
    (hfixed : fixed.toList = first :: others) (h : among first = false) (language : Language Char) :
    Ends among (word fixed * language) := by
  rintro _ ⟨_, rfl, rest, -, rfl⟩
  show Stops among (fixed.toList ++ rest)
  rw [hfixed]
  exact stops_cons h (others ++ rest)

/-- A run ends before a run of another class. -/
theorem ends_atLeast_mul {among other : Char → Bool} (h : ∀ c, other c = true → among c = false)
    (language : Language Char) : Ends among (atLeast 1 other * language) := by
  rintro _ ⟨run, hrun, rest, -, rfl⟩
  exact stops_append hrun h rest

/-- A run ends where the text does. -/
theorem ends_one (among : Char → Bool) : Ends among 1 := by
  rintro _ rfl c hc
  cases hc

/-- A text begins with a word and goes on in a language exactly where a scan for the word leaves a
text of the language. -/
theorem mem_word_mul {fixed : String} {language : Language Char} {text : List Char} :
    text ∈ word fixed * language ↔ ∃ rest, literal? fixed text = some rest ∧ rest ∈ language := by
  simp only [Language.mem_mul, mem_word, exists_eq_left, literal?_eq_some_iff]
  exact exists_congr fun rest => by rw [and_comm, eq_comm]

/-- A text of such a language begins with the word. -/
theorem exists_of_mem_word_mul {fixed : String} {language : Language Char} {text : List Char}
    (h : text ∈ word fixed * language) : ∃ rest, text = fixed.toList ++ rest := by
  obtain ⟨_, rfl, rest, -, rfl⟩ := h
  exact ⟨rest, rfl⟩

/-- So it is with a run, if the language does not go on with its class. -/
theorem mem_atLeast_mul {count : Nat} {among : Char → Bool} {language : Language Char}
    (h : Ends among language) {text : List Char} :
    text ∈ atLeast (count + 1) among * language ↔
      ∃ run rest, (run? among text = some (run, rest) ∧ count + 1 ≤ run.length) ∧
        rest ∈ language := by
  simp only [Language.mem_mul, run?_eq_some_iff_mem]
  constructor
  · rintro ⟨run, hrun, rest, hrest, rfl⟩
    exact ⟨run, rest, ⟨⟨rfl, atLeast_one_of_mem hrun, h rest hrest⟩, hrun.1⟩, hrest⟩
  · rintro ⟨run, rest, ⟨⟨rfl, hrun, -⟩, hcount⟩, hrest⟩
    exact ⟨run, ⟨hcount, hrun.2⟩, rest, hrest, rfl⟩

/-- A run that is found has one character or more. -/
theorem mem_atLeast_one_mul {among : Char → Bool} {language : Language Char}
    (h : Ends among language) {text : List Char} :
    text ∈ atLeast 1 among * language ↔
      ∃ run rest, run? among text = some (run, rest) ∧ rest ∈ language := by
  rw [mem_atLeast_mul h]
  refine exists_congr fun run => exists_congr fun rest => and_congr_left fun _ => ?_
  exact and_iff_left_of_imp fun hrun => (run?_eq_some_iff_mem.mp hrun).2.1.1

/-- And with blanks, of which only the rest is kept. -/
theorem mem_blanks_mul {language : Language Char} (h : Ends isBlank language)
    {text : List Char} :
    text ∈ atLeast 1 isBlank * language ↔
      ∃ rest, blanks? text = some rest ∧ rest ∈ language := by
  simp only [mem_atLeast_one_mul h, blanks?, Option.map_eq_some_iff, Prod.exists, exists_eq_right]
  exact exists_comm.trans (exists_congr fun rest => by rw [exists_and_right])

/-- Blanks that may be missing are dropped. -/
theorem mem_blanks_zero_mul {language : Language Char} (h : Ends isBlank language)
    {text : List Char} :
    text ∈ atLeast 0 isBlank * language ↔ trimStart text ∈ language := by
  constructor
  · rintro ⟨gap, hgap, rest, hrest, rfl⟩
    show trimStart (gap ++ rest) ∈ language
    rwa [trimStart_append hgap (h rest hrest)]
  · intro hrest
    obtain ⟨gap, hgap, htext⟩ := exists_append_trimStart text
    exact Language.mem_mul.mpr ⟨gap, hgap, trimStart text, hrest, htext.symm⟩

/-- Blanks may be followed by any characters of one line, which may be blank as well. -/
theorem mem_blanks_mul_line {text : List Char} :
    text ∈ atLeast 0 isBlank * atLeast 0 (· != '\n') ↔ '\n' ∉ trimStart text := by
  constructor
  · rintro ⟨gap, hgap, rest, hrest, rfl⟩ hmem
    -- Without the blanks in front of it, the rest is left or less than it.
    have hdrop : trimStart (gap ++ rest) = trimStart rest :=
      List.dropWhile_append_of_pos hgap.2
    change '\n' ∈ trimStart (gap ++ rest) at hmem
    rw [hdrop] at hmem
    exact forall_ne_break_iff.mp hrest.2 ((List.dropWhile_sublist isBlank).subset hmem)
  · intro hrest
    obtain ⟨gap, hgap, htext⟩ := exists_append_trimStart text
    exact Language.mem_mul.mpr ⟨gap, hgap, trimStart text,
      mem_atLeast_zero.mpr (forall_ne_break_iff.mpr hrest), htext.symm⟩

end LineCoverage.Text
