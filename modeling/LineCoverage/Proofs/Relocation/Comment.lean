import LineCoverage.Proofs.Numeral
import LineCoverage.Proofs.Relocation.Origin
import LineCoverage.Proofs.Text.Lines
import LineCoverage.Proofs.Text.Pattern

/-!
# `LineCoverage.Proofs.Relocation.Comment`: the directives of a text

A `Comment` is a line that has a directive on it, taken apart. There may be many
ways to do so: what follows one directive can hold another, and what looks like
the beginning of one may turn out to be none, because it has no number or names
no file. `Comment.Leads` is the one that counts, which begins furthest to the
left. Two that begin at the same place are the same (`Comment.eq_of_text_eq`), and
`exists_leads_of_find?` and `find?_eq_none_iff` prove that the search finds it.

A line is `Legible` if the number that counts on it can be read. The scan of some
lines is that of one line after another (`scanLines_cons`), so legible lines have
the directives that count on each of them (`exists_scanLines_of_legible`), and the
first line that is not legible ends it (`scanLines_eq_error_iff`). `scan_leftmost`
is this for the lines of a text, together with what becomes of two texts one below
the other.
-/

set_option autoImplicit false

namespace LineCoverage

open Text

namespace Directive

/-! ### A directive on a line -/

/-- A line with a directive on it, taken apart. -/
@[ext]
structure Comment where
  /-- All that stands in front of the directive. -/
  front : List Char
  number : List Char
  file : List Char
  /-- All that follows the closing quotation mark. -/
  back : List Char

namespace Comment

/-- The line that has these parts. -/
def text (comment : Comment) : List Char :=
  comment.front ++ "//@line ".toList ++ comment.number ++ ' ' :: '"' :: comment.file
    ++ '"' :: comment.back

/-- The number has a digit or more, and the file a character or more, none of them a quotation
mark. Anything may stand around the directive. -/
structure Valid (comment : Comment) : Prop where
  number : comment.number ∈ atLeast 1 isDigit
  file : comment.file ∈ atLeast 1 (· != '"')

/-- The directive that counts for a line: no other one on the line begins further to the left. -/
structure Leads (comment : Comment) (line : List Char) : Prop where
  valid : comment.Valid
  text : comment.text = line
  leftmost : ∀ other : Comment, other.Valid → other.text = line →
    comment.front.length ≤ other.front.length

/-- What a comment on a line says. -/
def directive (comment : Comment) (mark : Nat) : Directive where
  mark := mark
  line := Numeral.positional comment.number
  file := String.ofList comment.file

/-- Directives that begin at the same place of a line are the same. -/
theorem eq_of_text_eq {comment other : Comment} (h : comment.Valid) (hother : other.Valid)
    (htext : comment.text = other.text) (hfront : comment.front.length = other.front.length) :
    comment = other := by
  have hblank : ∀ rest, Stops isDigit (' ' :: rest) := stops_cons (by decide)
  have hquote : ∀ rest, Stops (· != '"') ('"' :: rest) := stops_cons (by decide)
  simp only [text, List.append_assoc, List.cons_append] at htext
  obtain ⟨hfront, htext⟩ := List.append_inj htext hfront
  obtain ⟨hnumber, htext⟩ := append_inj_of_stops h.number.2 hother.number.2 (hblank _) (hblank _)
    (List.append_cancel_left htext)
  obtain ⟨hfile, htext⟩ := append_inj_of_stops h.file.2 hother.file.2 (hquote _) (hquote _)
    (List.cons.inj (List.cons.inj htext).2).2
  exact Comment.ext hfront hnumber hfile (List.cons.inj htext).2

/-- One directive counts for a line at most. -/
theorem Leads.unique {comment other : Comment} {line : List Char} (h : comment.Leads line)
    (hother : other.Leads line) : comment = other :=
  eq_of_text_eq h.valid hother.valid (h.text.trans hother.text.symm)
    (Nat.le_antisymm (h.leftmost other hother.valid hother.text)
      (hother.leftmost comment h.valid h.text))

end Comment

/-- A directive is found at the front of a text exactly where there is one. -/
theorem parse?_eq_some_iff {text number file : List Char} :
    parse? text = some (number, file) ↔
      ∃ comment : Comment, comment.Valid ∧ comment.text = text ∧ comment.front = [] ∧
        comment.number = number ∧ comment.file = file := by
  have hopening : " \"".toList = [' ', '"'] := rfl
  have hclosing : "\"".toList = ['"'] := rfl
  simp only [parse?, bind, Option.bind_eq_some_iff, Prod.exists, literal?_eq_some_iff, hopening,
    hclosing, run?_eq_some_iff_mem, pure, Option.some.injEq, Prod.mk.injEq]
  constructor
  · -- Each part was found at the front of what the one before it left.
    rintro ⟨_, rfl, digits, _, ⟨rfl, hnumber, -⟩, _, rfl, name, _, ⟨rfl, hfile, -⟩, back, rfl,
      rfl, rfl⟩
    exact ⟨⟨[], digits, name, back⟩, ⟨hnumber, hfile⟩, by simp [Comment.text], rfl, rfl, rfl⟩
  · rintro ⟨⟨front, digits, name, back⟩, hvalid, rfl, rfl, rfl, rfl⟩
    exact ⟨digits ++ ' ' :: '"' :: name ++ '"' :: back, by simp [Comment.text], digits,
      ' ' :: '"' :: name ++ '"' :: back,
      ⟨by simp, hvalid.number, stops_cons (by decide) _⟩, name ++ '"' :: back, rfl, name,
      '"' :: back, ⟨rfl, hvalid.file, stops_cons (by decide) _⟩, back, rfl, rfl, rfl⟩

/-- A directive that is found on a line is the one that counts. -/
theorem exists_leads_of_find? {line number file : List Char}
    (h : find? line = some (number, file)) :
    ∃ comment : Comment, comment.Leads line ∧ comment.number = number ∧ comment.file = file := by
  fun_induction find? line with
  | case1 => cases h
  | case2 c rest found hfound =>
      cases h
      obtain ⟨comment, hvalid, htext, hfront, hparts⟩ := parse?_eq_some_iff.mp hfound
      refine ⟨comment, ⟨hvalid, htext, fun other _ _ => ?_⟩, hparts⟩
      rw [hfront]
      exact Nat.zero_le _
  | case3 c rest hnone ih =>
      obtain ⟨comment, hleads, hnumber, hfile⟩ := ih h
      refine ⟨{ comment with front := c :: comment.front },
        ⟨⟨hleads.valid.number, hleads.valid.file⟩, congrArg (c :: ·) hleads.text, ?_⟩, hnumber,
        hfile⟩
      intro other hother htext
      obtain ⟨front, digits, name, back⟩ := other
      cases front with
      | nil =>
          -- A directive at the front of the line would have been found there.
          have hfound := parse?_eq_some_iff.mpr
            ⟨⟨[], digits, name, back⟩, hother, htext, rfl, rfl, rfl⟩
          rw [hnone] at hfound
          cases hfound
      | cons d front =>
          have hrest := hleads.leftmost ⟨front, digits, name, back⟩ ⟨hother.number, hother.file⟩
            (List.cons.inj htext).2
          exact Nat.succ_le_succ hrest

/-- A directive at the front of a line is found. -/
theorem find?_of_parse? {line : List Char} {found : List Char × List Char}
    (h : parse? line = some found) : find? line = some found := by
  cases line with
  | nil => cases h
  | cons c rest =>
      unfold find?
      rw [h]

/-- Where there is a directive on a line, one is found. -/
theorem isSome_find? {comment : Comment} (h : comment.Valid) :
    (find? comment.text).isSome = true := by
  obtain ⟨front, number, file, back⟩ := comment
  induction front with
  | nil =>
      have hfound := parse?_eq_some_iff.mpr ⟨⟨[], number, file, back⟩, h, rfl, rfl, rfl, rfl⟩
      rw [find?_of_parse? hfound]
      rfl
  | cons c front ih =>
      have hrest := ih ⟨h.number, h.file⟩
      show (find? (c :: Comment.text ⟨front, number, file, back⟩)).isSome = true
      unfold find?
      split
      · rfl
      · exact hrest

/-- The directive that counts for a line is the one that is found. -/
theorem Comment.Leads.find? {comment : Comment} {line : List Char} (h : comment.Leads line) :
    Directive.find? line = some (comment.number, comment.file) := by
  have hsome := isSome_find? h.valid
  rw [h.text] at hsome
  obtain ⟨⟨number, file⟩, hfound⟩ := Option.isSome_iff_exists.mp hsome
  obtain ⟨other, hother, rfl, rfl⟩ := exists_leads_of_find? hfound
  rw [hfound, h.unique hother]

/-- Nothing is found on a line without a directive. -/
theorem find?_eq_none_iff {line : List Char} :
    find? line = none ↔ ∀ comment : Comment, comment.Valid → comment.text ≠ line := by
  constructor
  · rintro hnone comment hvalid rfl
    have hsome := isSome_find? hvalid
    rw [hnone] at hsome
    cases hsome
  · intro hno
    cases hfound : find? line with
    | none => rfl
    | some found =>
        obtain ⟨comment, hleads, -⟩ := exists_leads_of_find? hfound
        exact absurd hleads.text (hno comment hleads.valid)

/-- Of the directives on a line one counts. -/
theorem Comment.Valid.exists_leads {comment : Comment} (h : comment.Valid) :
    ∃ first : Comment, first.Leads comment.text := by
  obtain ⟨⟨number, file⟩, hfound⟩ := Option.isSome_iff_exists.mp (isSome_find? h)
  obtain ⟨first, hfirst, -⟩ := exists_leads_of_find? hfound
  exact ⟨first, hfirst⟩

/-! ### The directives of some lines -/

/-- The directive that counts for a line, if there is one, has a number that can be read. -/
def Legible (line : List Char) : Prop :=
  ∀ comment : Comment, comment.Leads line → comment.number.length ≤ maxDigits

/-- The first line whose directive has a number that cannot be read, which is of so many digits. -/
def FirstIllegible (lines : List (List Char)) (digits : Nat) : Prop :=
  ∃ earlier line later, lines = earlier ++ line :: later ∧ (∀ other ∈ earlier, Legible other) ∧
    ∃ comment : Comment, comment.Leads line ∧ comment.number.length = digits ∧ maxDigits < digits

/-- A directive so many lines further down. -/
def lower (lines : Nat) (directive : Directive) : Directive :=
  { directive with mark := directive.mark + lines }

/-- A line, and then the others. -/
theorem scanLines_cons (first : Nat) (line : List Char) (rest : List (List Char)) :
    scanLines first (line :: rest) = (do
      let here ← scanLines first [line]
      let later ← scanLines (first + 1) rest
      return here ++ later) := by
  have hnil : scanLines (first + 1) [] = .ok [] := rfl
  conv_lhs => unfold scanLines
  conv_rhs => enter [1]; unfold scanLines
  rw [hnil]
  cases find? line with
  | none => cases scanLines (first + 1) rest <;> rfl
  | some found =>
      obtain ⟨digits, file⟩ := found
      dsimp only
      cases Numeral.read digits with
      | error fault => rfl
      | ok value => cases scanLines (first + 1) rest <;> rfl

/-- A line without a directive adds none. -/
theorem scanLines_of_find?_eq_none {line : List Char} (h : find? line = none) (mark : Nat) :
    scanLines mark [line] = .ok [] := by
  unfold scanLines
  rw [h]
  rfl

/-- A line with a directive adds the one that counts, if its number can be read. -/
theorem scanLines_of_leads {comment : Comment} {line : List Char} (h : comment.Leads line)
    (mark : Nat) :
    scanLines mark [line]
      = if maxDigits < comment.number.length then .error (.numberTooLong comment.number.length)
        else .ok [comment.directive mark] := by
  have hnil : scanLines (mark + 1) [] = .ok [] := rfl
  unfold scanLines
  rw [h.find?, hnil]
  by_cases hlong : maxDigits < comment.number.length
  · have hread := (Numeral.read_eq_error_iff comment.number _).mpr ⟨hlong, rfl⟩
    rw [if_pos hlong]
    simp only [hread]
  · have hread := (Numeral.read_eq_ok_iff comment.number _).mpr ⟨Nat.not_lt.mp hlong, rfl⟩
    rw [if_neg hlong]
    simp only [hread]
    rfl

/-- A legible line adds the directive that counts for it, if there is one. -/
theorem Legible.scanLines {line : List Char} (h : Legible line) (mark : Nat) :
    ∃ here, Directive.scanLines mark [line] = .ok here ∧
      ∀ directive, directive ∈ here ↔
        ∃ comment : Comment, comment.Leads line ∧ directive = comment.directive mark := by
  cases hfound : find? line with
  | none =>
      refine ⟨[], scanLines_of_find?_eq_none hfound mark, fun directive => ?_⟩
      simp only [List.not_mem_nil, false_iff, not_exists, not_and]
      exact fun comment hleads => absurd hleads.text (find?_eq_none_iff.mp hfound _ hleads.valid)
  | some found =>
      obtain ⟨comment, hleads, -⟩ := exists_leads_of_find? hfound
      refine ⟨[comment.directive mark], ?_, fun directive => ?_⟩
      · rw [scanLines_of_leads hleads, if_neg (Nat.not_lt.mpr (h comment hleads))]
      · rw [List.mem_singleton]
        constructor
        · exact fun heq => ⟨comment, hleads, heq⟩
        · rintro ⟨other, hother, rfl⟩
          rw [hleads.unique hother]

/-- Legible lines have the directives that count for each of them. -/
theorem exists_scanLines_of_legible {lines : List (List Char)}
    (h : ∀ line ∈ lines, Legible line) (first : Nat) :
    ∃ directives, scanLines first lines = .ok directives ∧
      ∀ directive, directive ∈ directives ↔ ∃ index line, lines[index]? = some line ∧
        ∃ comment : Comment, comment.Leads line ∧
          directive = comment.directive (first + index) := by
  induction lines generalizing first with
  | nil => exact ⟨[], rfl, by simp⟩
  | cons line rest ih =>
      obtain ⟨here, hhere, hmem⟩ := (h line List.mem_cons_self).scanLines first
      obtain ⟨later, hlater, hrest⟩ :=
        ih (fun other hother => h other (List.mem_cons_of_mem line hother)) (first + 1)
      refine ⟨here ++ later, ?_, fun directive => ?_⟩
      · rw [scanLines_cons, hhere, hlater]
        rfl
      · -- The first line has index zero, and each of the others one more than among themselves.
        rw [List.mem_append, hmem, hrest]
        constructor
        · rintro (⟨comment, hleads, rfl⟩ | ⟨index, other, hother, comment, hleads, rfl⟩)
          · exact ⟨0, line, rfl, comment, hleads, rfl⟩
          · refine ⟨index + 1, other, hother, comment, hleads, ?_⟩
            rw [Nat.add_right_comm, Nat.add_assoc]
        · rintro ⟨index, other, hother, comment, hleads, rfl⟩
          cases index with
          | zero =>
              cases hother
              exact .inl ⟨comment, hleads, rfl⟩
          | succ index =>
              refine .inr ⟨index, other, hother, comment, hleads, ?_⟩
              rw [Nat.add_right_comm, Nat.add_assoc]

/-- Lines in two parts: those of the second part are counted on. -/
theorem scanLines_append (first : Nat) (left right : List (List Char)) :
    scanLines first (left ++ right) = (do
      let earlier ← scanLines first left
      let later ← scanLines (first + left.length) right
      return earlier ++ later) := by
  induction left generalizing first with
  | nil =>
      show scanLines first right = (scanLines first right).bind fun later => .ok ([] ++ later)
      cases scanLines first right <;> rfl
  | cons line rest ih =>
      have hlength : first + (line :: rest).length = first + 1 + rest.length := by
        rw [List.length_cons]
        omega
      rw [List.cons_append, scanLines_cons, scanLines_cons first line rest, ih (first + 1), hlength]
      simp only [bind_assoc, pure_bind, List.append_assoc]

/-- Where lines are counted from makes no difference but to their numbers. -/
theorem scanLines_add (first count : Nat) (lines : List (List Char)) :
    scanLines (first + count) lines = (scanLines first lines).map (List.map (lower count)) := by
  induction lines generalizing first with
  | nil => rfl
  | cons line rest ih =>
      have hnext : first + count + 1 = first + 1 + count := by omega
      unfold scanLines
      rw [hnext, ih (first + 1)]
      cases find? line with
      | none => rfl
      | some found =>
          obtain ⟨digits, file⟩ := found
          dsimp only
          cases Numeral.read digits with
          | error fault => rfl
          | ok value => cases scanLines (first + 1) rest <;> rfl

/-- Where not all lines are legible, one is the first that is not. -/
theorem exists_firstIllegible {lines : List (List Char)} (h : ¬ ∀ line ∈ lines, Legible line) :
    ∃ digits, FirstIllegible lines digits := by
  classical
  simp only [not_forall] at h
  obtain ⟨bad, hmem, hbad⟩ := h
  have hfind : (lines.find? fun line => decide (¬ Legible line)).isSome = true :=
    List.find?_isSome.mpr ⟨bad, hmem, decide_eq_true hbad⟩
  obtain ⟨line, hline⟩ := Option.isSome_iff_exists.mp hfind
  obtain ⟨hillegible, earlier, later, hsplit, hearlier⟩ := List.find?_eq_some_iff_append.mp hline
  obtain ⟨comment, hleads, hlong⟩ : ∃ comment : Comment, comment.Leads line ∧
      maxDigits < comment.number.length := by
    simpa [Legible] using hillegible
  exact ⟨comment.number.length, earlier, line, later, hsplit,
    fun other hother => by simpa using hearlier other hother, comment, hleads, rfl, hlong⟩

/-- The first line that is not legible stops the scan, and nothing else does. -/
theorem scanLines_eq_error_iff (first : Nat) (lines : List (List Char)) (fault : Fault) :
    scanLines first lines = .error fault ↔
      ∃ digits, FirstIllegible lines digits ∧ fault = .numberTooLong digits := by
  -- The lines before it can be scanned, so that the scan gets as far as this line.
  have hstops : ∀ digits, FirstIllegible lines digits →
      scanLines first lines = .error (.numberTooLong digits) := by
    rintro _ ⟨earlier, line, later, rfl, hearlier, comment, hleads, rfl, hlong⟩
    obtain ⟨directives, hscan, -⟩ := exists_scanLines_of_legible hearlier first
    rw [scanLines_append, hscan, scanLines_cons, scanLines_of_leads hleads, if_pos hlong]
    rfl
  constructor
  · intro hfails
    have hsome : ¬ ∀ line ∈ lines, Legible line := by
      intro hall
      obtain ⟨directives, hscan, -⟩ := exists_scanLines_of_legible hall first
      rw [hfails] at hscan
      cases hscan
    obtain ⟨digits, hfirst⟩ := exists_firstIllegible hsome
    exact ⟨digits, hfirst, Except.error.inj (hfails.symm.trans (hstops digits hfirst))⟩
  · rintro ⟨digits, hfirst, rfl⟩
    exact hstops digits hfirst

/-! ### The directives of a text -/

/-- The directives of a text are those of its lines, counted from one. -/
theorem scan_eq (text : String) : scan text = scanLines 1 ((lines text).map String.toList) := by
  have hround : (String.toList ∘ String.ofList : List Char → List Char) = id := by
    funext cs
    exact String.toList_ofList
  rw [scan, lines, List.map_map, hround, List.map_id]

/-- The number of every directive that counts in a text can be read. -/
def Readable (text : String) : Prop := ∀ line ∈ lines text, Legible line.toList

/-- The directives of a readable text are those that count for its lines. -/
theorem Readable.exists_scan {text : String} (h : Readable text) :
    ∃ directives, scan text = .ok directives ∧
      ∀ directive, directive ∈ directives ↔ ∃ index line, (lines text)[index]? = some line ∧
        ∃ comment : Comment, comment.Leads line.toList ∧
          directive = comment.directive (index + 1) := by
  have hlegible : ∀ line ∈ (lines text).map String.toList, Legible line := by
    simpa [Readable] using h
  obtain ⟨directives, hscan, hmem⟩ := exists_scanLines_of_legible hlegible 1
  refine ⟨directives, (scan_eq text).trans hscan, fun directive => ?_⟩
  simp only [hmem, List.getElem?_map, Option.map_eq_some_iff, Nat.add_comm 1]
  constructor
  · rintro ⟨index, _, ⟨line, hline, rfl⟩, hcomment⟩
    exact ⟨index, line, hline, hcomment⟩
  · rintro ⟨index, line, hline, hcomment⟩
    exact ⟨index, line.toList, ⟨line, hline, rfl⟩, hcomment⟩

/-- The directives of a text can be told exactly if the text is readable. -/
theorem readable_iff (text : String) :
    Readable text ↔ ∃ directives, scan text = .ok directives := by
  constructor
  · intro h
    obtain ⟨directives, hscan, -⟩ := h.exists_scan
    exact ⟨directives, hscan⟩
  · rintro ⟨directives, hscan⟩
    by_contra hunreadable
    have hsome : ¬ ∀ line ∈ (lines text).map String.toList, Legible line := by
      simpa [Readable] using hunreadable
    obtain ⟨digits, hfirst⟩ := exists_firstIllegible hsome
    have hfails := (scanLines_eq_error_iff 1 _ _).mpr ⟨digits, hfirst, rfl⟩
    rw [← scan_eq, hscan] at hfails
    cases hfails

/-- Each directive of a text counts for its line. -/
theorem mem_scan_iff {text : String} {directives : List Directive}
    (h : scan text = .ok directives) (directive : Directive) :
    directive ∈ directives ↔ ∃ index line, (lines text)[index]? = some line ∧
      ∃ comment : Comment, comment.Leads line.toList ∧
        directive = comment.directive (index + 1) := by
  obtain ⟨found, hscan, hmem⟩ := ((readable_iff text).mpr ⟨directives, h⟩).exists_scan
  cases h.symm.trans hscan
  exact hmem directive

/-- The directives of two texts, one below the other. -/
theorem scan_append_break (upper under : String) :
    scan (upper ++ "\n" ++ under) = (do
      let earlier ← scan upper
      let later ← scan under
      return earlier ++ later.map (lower (lines upper).length)) := by
  rw [scan_eq, scan_eq upper, scan_eq under, lines_append_break, List.map_append, scanLines_append,
    scanLines_add, List.length_map]
  cases scanLines 1 ((lines upper).map String.toList) with
  | error fault => rfl
  | ok earlier => cases scanLines 1 ((lines under).map String.toList) <;> rfl

/-- **A scan finds the leftmost directive of every line.**

* The directives are told exactly if each has a number that can be read.
* They stand in ascending order, on lines of the text. A line has one exactly if there is a
  directive on it, whatever else is, and it is the one that begins furthest to the left; no other
  directive begins there.
* Otherwise the first number that cannot be read is named.
* Of a text below another one the directives are the same, as many lines further down. -/
theorem scan_leftmost (text : String) :
    (Readable text ↔ ∃ directives, scan text = .ok directives) ∧
    (∀ directives, scan text = .ok directives →
      Ascending directives ∧
      (∀ directive ∈ directives, 1 ≤ directive.mark ∧
        directive.mark ≤ text.toList.count '\n' + 1) ∧
      ∀ index line, (lines text)[index]? = some line →
        ((∃ directive ∈ directives, directive.mark = index + 1) ↔
          ∃ comment : Comment, comment.Valid ∧ comment.text = line.toList) ∧
        ∀ directive ∈ directives, directive.mark = index + 1 →
          ∃ comment : Comment, comment.Leads line.toList ∧
            directive = comment.directive (index + 1) ∧
            ∀ other : Comment, other.Leads line.toList → other = comment) ∧
    (∀ fault, scan text = .error fault ↔
      ∃ digits, FirstIllegible ((lines text).map String.toList) digits ∧
        fault = .numberTooLong digits) ∧
    ∀ under, scan (text ++ "\n" ++ under) = (do
      let earlier ← scan text
      let later ← scan under
      return earlier ++ later.map (lower (lines text).length)) := by
  refine ⟨readable_iff text, fun directives hscan => ?_, fun fault => ?_, scan_append_break text⟩
  · have hmem := mem_scan_iff hscan
    refine ⟨ascending_of_scan hscan, fun directive hdirective => ?_, fun index line hline => ?_⟩
    · obtain ⟨index, line, hline, comment, -, rfl⟩ := (hmem directive).mp hdirective
      have hindex := (List.getElem?_eq_some_iff.mp hline).1
      rw [length_lines] at hindex
      exact ⟨Nat.succ_pos index, hindex⟩
    · -- The mark of a directive tells its line, so there is no choice of another one.
      have hcounts : ∀ directive ∈ directives, directive.mark = index + 1 →
          ∃ comment : Comment, comment.Leads line.toList ∧
            directive = comment.directive (index + 1) := by
        intro directive hdirective hmark
        obtain ⟨place, other, hother, comment, hleads, rfl⟩ := (hmem directive).mp hdirective
        obtain rfl : place = index := Nat.succ.inj hmark
        rw [hline] at hother
        cases hother
        exact ⟨comment, hleads, rfl⟩
      refine ⟨⟨?_, ?_⟩, ?_⟩
      · rintro ⟨directive, hdirective, hmark⟩
        obtain ⟨comment, hleads, -⟩ := hcounts directive hdirective hmark
        exact ⟨comment, hleads.valid, hleads.text⟩
      · rintro ⟨comment, hvalid, htext⟩
        obtain ⟨first, hleads⟩ := hvalid.exists_leads
        rw [htext] at hleads
        exact ⟨first.directive (index + 1),
          (hmem _).mpr ⟨index, line, hline, first, hleads, rfl⟩, rfl⟩
      · intro directive hdirective hmark
        obtain ⟨comment, hleads, heq⟩ := hcounts directive hdirective hmark
        exact ⟨comment, hleads, heq, fun other hother => hother.unique hleads⟩
  · rw [scan_eq]
    exact scanLines_eq_error_iff 1 _ fault

/-- What only begins like a directive does not keep the next one from being found. -/
example : scan "//@line 5 \"\" //@line 007 \"a.js\"" = .ok [⟨1, 7, "a.js"⟩] := by cbv

end Directive

end LineCoverage
