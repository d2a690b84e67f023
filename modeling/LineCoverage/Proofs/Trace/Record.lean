import LineCoverage.Trace.Record
import Mathlib.Data.List.TakeWhile

/-!
# `LineCoverage.Proofs.Trace.Record`: what is written in a record

A line that is read as a record has the form of one, up to the carriage returns
at its end (`exists_lineText_append`). `banner?_eq_some_iff` says exactly which
texts are a header or an ending and what their path and number are, and
`line_of_header` puts this as the whole line of a header. Of an instruction only
the disassembly is kept as text, and it is a line without blanks around it
(`trimmed_of_instruction?`).
-/

set_option autoImplicit false

namespace LineCoverage

namespace Text

/-! ### Trimmed texts -/

/-- A part of one line, without blanks around it. -/
structure Trimmed (text : List Char) : Prop where
  line : '\n' ∉ text
  first : ∀ c, text.head? = some c → isBlank c = false
  last : ∀ c, text.getLast? = some c → isBlank c = false

/-- What is dropped off the end of a text are characters to be dropped. -/
theorem exists_dropTrailing_append (drop : Char → Bool) (text : List Char) :
    ∃ tail, text = dropTrailing drop text ++ tail ∧ ∀ c ∈ tail, drop c = true := by
  refine ⟨(text.reverse.takeWhile drop).reverse, ?_, fun c hc => ?_⟩
  · rw [dropTrailing, ← List.reverse_append, List.takeWhile_append_dropWhile,
      List.reverse_reverse]
  · exact List.all_eq_true.mp List.all_takeWhile c (List.mem_reverse.mp hc)

/-- A text ends where nothing is left to be dropped. -/
theorem getLast?_dropTrailing {drop : Char → Bool} {text : List Char} {c : Char}
    (h : (dropTrailing drop text).getLast? = some c) : drop c = false := by
  have hstop := List.head?_dropWhile_not drop text.reverse
  rw [dropTrailing, List.getLast?_reverse] at h
  rw [h] at hstop
  simpa using hstop

/-- What is dropped off the end of a text ends behind the last character that stays. -/
theorem dropTrailing_append_cons {drop : Char → Bool} {c : Char} (h : drop c = false)
    (front rest : List Char) :
    dropTrailing drop (front ++ c :: rest) = front ++ c :: dropTrailing drop rest := by
  have hreverse : (front ++ c :: rest).reverse = rest.reverse ++ c :: front.reverse := by simp
  unfold dropTrailing
  rw [hreverse, List.dropWhile_append]
  split
  · -- All of the rest is dropped.
    rename_i hempty
    rw [List.isEmpty_iff.mp hempty, List.dropWhile_cons_of_neg (by simp [h])]
    simp
  · simp

/-- Characters to be dropped do not matter at the end of a text. -/
theorem dropTrailing_append {drop : Char → Bool} {tail : List Char} (h : ∀ c ∈ tail, drop c = true)
    (text : List Char) : dropTrailing drop (text ++ tail) = dropTrailing drop text := by
  unfold dropTrailing
  rw [List.reverse_append, List.dropWhile_append_of_pos]
  intro c hc
  exact h c (List.mem_reverse.mp hc)

/-- So it is with blanks at the end of a text whose blanks are taken off both ends. -/
theorem trimEnd_trimStart_append {tail : List Char} (h : ∀ c ∈ tail, isBlank c = true)
    (text : List Char) : trimEnd (trimStart (text ++ tail)) = trimEnd (trimStart text) := by
  unfold trimStart
  rw [List.dropWhile_append]
  split
  · -- The text is blank as a whole, and nothing is left of either.
    rename_i hempty
    rw [List.isEmpty_iff.mp hempty, List.dropWhile_eq_nil_iff.mpr h]
  · exact dropTrailing_append h _

/-- A text is trimmed after blanks were taken off both ends. -/
theorem trimmed_trimEnd_trimStart {text : List Char} (h : '\n' ∉ trimStart text) :
    Trimmed (trimEnd (trimStart text)) := by
  obtain ⟨tail, htail, -⟩ := exists_dropTrailing_append isBlank (trimStart text)
  change trimStart text = trimEnd (trimStart text) ++ tail at htail
  constructor
  · intro hmem
    rw [htail] at h
    exact h (List.mem_append_left _ hmem)
  · intro c hc
    -- The first character is the first one behind the blanks at the start.
    have hfirst : (trimStart text).head? = some c := by
      rw [htail, List.head?_append, hc]
      rfl
    have hstop := List.head?_dropWhile_not isBlank text
    rw [trimStart] at hfirst
    rw [hfirst] at hstop
    simpa using hstop
  · intro c hc
    exact getLast?_dropTrailing hc

end Text

namespace Record

open Text

/-! ### Lines -/

/-- The text of a line. Carriage returns at its end belong to the line break. -/
def lineText (line : String) : List Char := dropTrailing (· == '\r') line.toList

/-- A line is its text and carriage returns. -/
theorem exists_lineText_append (line : String) :
    ∃ returns, line.toList = lineText line ++ returns ∧ ∀ c ∈ returns, c = '\r' := by
  obtain ⟨returns, hline, hreturns⟩ := exists_dropTrailing_append (· == '\r') line.toList
  exact ⟨returns, hline, fun c hc => beq_iff_eq.mp (hreturns c hc)⟩

/-- The text of a line is on one line. -/
theorem not_mem_lineText {line : String} (h : '\n' ∉ line.toList) : '\n' ∉ lineText line := by
  obtain ⟨returns, hline, -⟩ := exists_lineText_append line
  intro hmem
  rw [hline] at h
  exact h (List.mem_append_left returns hmem)

/-- What was found in a text that is read as a record. -/
inductive Found (text : List Char) : Record → Prop where
  | header {path number : List Char} (found : banner? "--- SCRIPT " text = some (path, number)) :
    Found text (.header path number)
  | ending (found : (banner? "--- END SCRIPT " text).isSome = true) : Found text .ending
  | instruction {columns : InstructionText} (found : instruction? text = some columns) :
    Found text (.instruction columns)
  | furniture (found : isFurniture text = true) : Found text .furniture

/-- A text is read as what was found in it. -/
theorem found_of_ofText? {text : List Char} {record : Record} (h : ofText? text = some record) :
    Found text record := by
  unfold ofText? at h
  split at h
  · rename_i hheader
    cases h
    exact .header hheader
  · split at h
    · rename_i hending
      cases h
      exact .ending hending
    · split at h
      · rename_i hinstruction
        cases h
        exact .instruction hinstruction
      · split at h
        · rename_i hfurniture
          cases h
          exact .furniture hfurniture
        · cases h

/-! ### Headers and endings -/

/-- A banner is its opening, a path, a colon, a number and the dashes, and nothing else. -/
theorem banner?_eq_some_iff {opening : String} {text path number : List Char} :
    banner? opening text = some (path, number) ↔
      text = opening.toList ++ path ++ ':' :: number ++ " ---".toList ∧
      path ≠ [] ∧ '\n' ∉ path ∧ number ≠ [] ∧ ∀ c ∈ number, isDigit c = true := by
  simp only [banner?, bind, Option.bind_eq_some_iff]
  constructor
  · rintro ⟨body, hbody, rest, hdashes, ⟨run, tail⟩, hrun, back, hcolon, hpath⟩
    rw [literal?_eq_some_iff] at hbody hdashes hcolon
    obtain ⟨hrest, hne, hdigits, -⟩ := (run?_eq_some_iff _ _ _ _).mp hrun
    split at hpath
    · cases hpath
    · rename_i hback
      cases hpath
      simp only [Bool.or_eq_true, decide_eq_true_eq, List.contains_iff_mem, not_or] at hback
      refine ⟨?_, by simpa using hback.1, by simpa using hback.2, by simpa using hne,
        fun c hc => hdigits c (List.mem_reverse.mp hc)⟩
      -- Behind the opening the line was read backwards.
      have hforward : body = (rest.reverse ++ " ---".toList) := by
        have hreversed := congrArg List.reverse hdashes
        rwa [List.reverse_reverse, List.reverse_append] at hreversed
      change tail = ":".toList ++ back at hcolon
      rw [hbody, hforward, hrest, hcolon]
      simp
  · rintro ⟨rfl, hpath, hline, hnumber, hdigits⟩
    refine ⟨path ++ ':' :: number ++ " ---".toList, ?_, number.reverse ++ ':' :: path.reverse, ?_,
      ⟨number.reverse, ':' :: path.reverse⟩, ?_, path.reverse, ?_, ?_⟩
    · simp [literal?_eq_some_iff]
    · simp [literal?_eq_some_iff]
    · -- The run of digits ends at the colon, which is no digit.
      refine (run?_eq_some_iff _ _ _ _).mpr ⟨rfl, by simpa using hnumber, ?_, ?_⟩
      · exact fun c hc => hdigits c (List.mem_reverse.mp hc)
      · rintro c hc
        obtain rfl := Option.some.inj hc
        decide
    · simp [literal?_eq_some_iff]
    · simp [hpath, hline]

/-- A text that is a header is a banner. -/
theorem banner?_of_ofText? {text path number : List Char}
    (h : ofText? text = some (.header path number)) :
    banner? "--- SCRIPT " text = some (path, number) := by
  cases found_of_ofText? h with
  | header found => exact found

/-- The whole line of a header. It may end with carriage returns. -/
theorem line_of_header {line : String} {path number : List Char}
    (h : ofLine? line = some (.header path number)) :
    ∃ returns, line.toList = "--- SCRIPT ".toList ++ path ++ ':' :: number ++ " ---".toList
        ++ returns ∧ (∀ c ∈ returns, c = '\r') ∧
      path ≠ [] ∧ '\n' ∉ path ∧ number ≠ [] ∧ ∀ c ∈ number, isDigit c = true := by
  obtain ⟨returns, hline, hreturns⟩ := exists_lineText_append line
  have hbanner : banner? "--- SCRIPT " (lineText line) = some (path, number) :=
    banner?_of_ofText? h
  obtain ⟨htext, hparts⟩ := banner?_eq_some_iff.mp hbanner
  exact ⟨returns, by rw [hline, htext], hreturns, hparts⟩

/-! ### Instructions -/

/-- A disassembly is kept without the blanks around it. -/
theorem trimmed_of_instruction? {text : List Char} {columns : InstructionText}
    (h : instruction? text = some columns) : Trimmed columns.asm := by
  simp only [instruction?, bind, Option.bind_eq_some_iff] at h
  -- Only the last part matters, the text behind the brackets.
  obtain ⟨_, -, _, -, _, -, _, -, _, -, _, -, _, -, _, -, asm, -, h⟩ := h
  split at h
  · cases h
  · rename_i hline
    cases h
    exact trimmed_trimEnd_trimStart (by simpa using hline)

/-- A text that is an instruction is read as its columns. -/
theorem instruction?_of_ofText? {text : List Char} {columns : InstructionText}
    (h : ofText? text = some (.instruction columns)) : instruction? text = some columns := by
  cases found_of_ofText? h with
  | instruction found => exact found

end Record

end LineCoverage
