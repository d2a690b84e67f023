import LineCoverage.Text.Lines

/-!
# `LineCoverage.Proofs.Text.Lines`: the lines of a text put together

A text that arrives in parts is cut into lines part by part. What is known of a
part are its complete lines, which a line feed ends, and the start of a line
whose end has not arrived. `lines_append` says how the two go together: the
complete lines of the first part stand, and its unfinished line is read on with
the second part. `completeLines_append` and `unfinished_append` are the two
halves of that.

A text has one line more than it has line feeds (`length_lines`), the last of them
empty if the text ends with a line feed. That one is no line where the text is
known to be complete (`linesOf`). So two texts have the lines of both, if the
first has no line that goes on in the second (`linesOf_append`).
-/

set_option autoImplicit false

namespace LineCoverage.Text

/-- The lines of a text that a line feed ends. -/
def completeLines (text : String) : List String := (lines text).dropLast

/-- What follows the last line feed of a text. -/
def unfinished (text : String) : String := (lines text).getLastD ""

/-- The lines of a text that is complete: a piece that is empty behind the last line feed is no
line. -/
def linesOf (text : String) : List String :=
  if (lines text).getLast? = some "" then (lines text).dropLast else lines text

/-- A text has one piece at least. -/
theorem lines_ne_nil (text : String) : lines text ≠ [] := by
  intro h
  exact List.splitOn_ne_nil '\n' text.toList (List.map_eq_nil_iff.mp h)

/-- A list has one piece more than it has separators. -/
private theorem length_splitOn {α : Type} [BEq α] (separator : α) (values : List α) :
    (values.splitOn separator).length = values.count separator + 1 := by
  induction values with
  | nil => simp
  | cons value rest ih =>
      rw [List.splitOn_cons_eq_if_modifyHead, List.count_cons]
      by_cases hvalue : (value == separator) = true
      · simp [hvalue, ih]
      · simp [hvalue, ih]

/-- A text has one line more than it has line feeds, if the piece behind the last one counts. -/
theorem length_lines (text : String) : (lines text).length = text.toList.count '\n' + 1 := by
  rw [lines, List.length_map, length_splitOn]

/-- The pieces of a text are its complete lines and the unfinished one. -/
theorem completeLines_append_unfinished (text : String) :
    completeLines text ++ [unfinished text] = lines text := by
  have hne := lines_ne_nil text
  have hlast : unfinished text = (lines text).getLast hne := by
    rw [unfinished, List.getLastD_eq_getLast?, List.getLast?_eq_some_getLast hne]
    rfl
  rw [completeLines, hlast]
  exact List.dropLast_concat_getLast hne

/-- The unfinished line of a complete text is a line unless it is empty. -/
theorem linesOf_eq (text : String) :
    linesOf text
      = completeLines text ++ if unfinished text = "" then [] else [unfinished text] := by
  have hlast : (lines text).getLast? = some (unfinished text) := by
    rw [← completeLines_append_unfinished, List.getLast?_concat]
  rw [linesOf, hlast]
  by_cases h : unfinished text = ""
  · simp [h, completeLines]
  · simp [h, completeLines_append_unfinished]

/-- No text, no complete line. -/
theorem completeLines_empty : completeLines "" = [] := by decide

/-- No text, and nothing of a line. -/
theorem unfinished_empty : unfinished "" = "" := by decide

/-! ### A text in two parts -/

/-- Where a list is cut at a separator, a second list goes on where the last piece of the first
one ends. -/
private theorem splitOn_append {α : Type} [BEq α] (separator : α) (left right : List α) :
    (left ++ right).splitOn separator
      = (left.splitOn separator).dropLast
          ++ ((left.splitOn separator).getLastD [] ++ right).splitOn separator := by
  induction left with
  | nil => simp
  | cons c left ih =>
      have hne := List.splitOn_ne_nil separator left
      rw [List.cons_append, List.splitOn_cons_eq_if_modifyHead,
        List.splitOn_cons_eq_if_modifyHead, ih]
      -- The pieces of the tail: one or more, of which the first takes the new element.
      cases hpieces : left.splitOn separator with
      | nil => exact absurd hpieces hne
      | cons piece pieces =>
          by_cases hc : (c == separator) = true
          · simp [hc]
          · cases pieces with
            | nil => simp [hc, List.splitOn_cons_eq_if_modifyHead]
            | cons second pieces => simp [hc]

/-- The lines of a text in two parts: the complete lines of the first, and then those of the
second read on from the unfinished line of the first. -/
theorem lines_append (left right : String) :
    lines (left ++ right) = completeLines left ++ lines (unfinished left ++ right) := by
  have hlast : (unfinished left).toList = (left.toList.splitOn '\n').getLastD [] := by
    rw [unfinished, lines, List.getLastD_eq_getLast?, List.getLast?_map,
      List.getLastD_eq_getLast?]
    cases (left.toList.splitOn '\n').getLast? with
    | none => rfl
    | some piece => simp
  rw [lines, String.toList_append, splitOn_append, List.map_append, ← hlast,
    ← String.toList_append, List.map_dropLast]
  rfl

/-- The complete lines of a text in two parts. -/
theorem completeLines_append (left right : String) :
    completeLines (left ++ right)
      = completeLines left ++ completeLines (unfinished left ++ right) := by
  rw [completeLines, lines_append, List.dropLast_append_of_ne_nil (lines_ne_nil _)]
  rfl

/-- The unfinished line of a text in two parts. -/
theorem unfinished_append (left right : String) :
    unfinished (left ++ right) = unfinished (unfinished left ++ right) := by
  rw [unfinished, lines_append, ← completeLines_append_unfinished (unfinished left ++ right),
    ← List.append_assoc, List.getLastD_concat]

/-- A line feed ends the lines before it. -/
theorem lines_append_break (left right : String) :
    lines (left ++ "\n" ++ right) = lines left ++ lines right := by
  have hlist : (left ++ "\n" ++ right).toList = left.toList ++ '\n' :: right.toList := by simp
  rw [lines, hlist, List.splitOn_append_cons_self, List.map_append]
  rfl

/-- Behind a line feed there is nothing of a line. -/
theorem unfinished_break (text : String) : unfinished (text ++ "\n") = "" := by
  have hlines := lines_append_break text ""
  rw [String.append_empty] at hlines
  rw [unfinished, hlines]
  exact List.getLastD_concat

/-- Where no line goes on, the lines of two texts together are those of both. -/
theorem linesOf_append {left : String} (h : unfinished left = "") (right : String) :
    linesOf (left ++ right) = linesOf left ++ linesOf right := by
  rw [linesOf_eq, linesOf_eq left, linesOf_eq right, completeLines_append, unfinished_append, h]
  simp

/-- A piece has members of the list, and does not hold the separator. -/
private theorem mem_of_mem_splitOn {α : Type} [BEq α] [LawfulBEq α] {separator : α}
    {values piece : List α} (h : piece ∈ values.splitOn separator) :
    ∀ value ∈ piece, value ∈ values ∧ value ≠ separator := by
  induction values generalizing piece with
  | nil => simp_all
  | cons value rest ih =>
      have hrest : ∀ piece ∈ rest.splitOn separator, ∀ other ∈ piece,
          other ∈ value :: rest ∧ other ≠ separator := by
        intro piece hpiece other hother
        obtain ⟨hmem, hne⟩ := ih hpiece other hother
        exact ⟨List.mem_cons_of_mem _ hmem, hne⟩
      rw [List.splitOn_cons_eq_if_modifyHead] at h
      split at h
      · rcases List.mem_cons.mp h with rfl | hlater
        · exact fun _ hother => absurd hother List.not_mem_nil
        · exact hrest piece hlater
      · rename_i hvalue
        -- The first piece takes the new element, and the others stay.
        cases hpieces : rest.splitOn separator with
        | nil => simp [hpieces] at h
        | cons first pieces =>
            rw [hpieces, List.modifyHead_cons] at h
            rcases List.mem_cons.mp h with rfl | hlater
            · intro other hother
              rcases List.mem_cons.mp hother with rfl | hmem
              · exact ⟨List.mem_cons_self, fun heq => hvalue (by simp [heq])⟩
              · exact hrest first (by simp [hpieces]) other hmem
            · exact hrest piece (by simp [hpieces, hlater])

/-- A line has characters of the text, and no line feed among them. -/
theorem mem_of_mem_lines {text line : String} (h : line ∈ lines text) :
    ∀ c ∈ line.toList, c ∈ text.toList ∧ c ≠ '\n' := by
  obtain ⟨piece, hpiece, rfl⟩ := List.mem_map.mp h
  rw [String.toList_ofList]
  exact mem_of_mem_splitOn hpiece

/-- No piece of a text holds a line feed. -/
theorem not_mem_of_mem_lines {text line : String} (h : line ∈ lines text) : '\n' ∉ line.toList :=
  fun hmem => (mem_of_mem_lines h _ hmem).2 rfl

/-- No line of a text holds a line feed. -/
theorem not_mem_of_mem_linesOf {text line : String} (h : line ∈ linesOf text) :
    '\n' ∉ line.toList := by
  unfold linesOf at h
  split at h
  · exact not_mem_of_mem_lines (List.dropLast_subset _ h)
  · exact not_mem_of_mem_lines h

/-- A text without a line feed is one line. -/
theorem lines_of_not_mem {line : String} (h : '\n' ∉ line.toList) : lines line = [line] := by
  rw [lines, List.splitOn_eq_singleton h, List.map_singleton, String.ofList_toList]

/-- A line feed at the end of a text makes it complete. -/
theorem linesOf_append_break (text : String) : linesOf (text ++ "\n") = lines text := by
  have hlines := lines_append_break text ""
  rw [String.append_empty, show lines "" = [""] by decide] at hlines
  rw [linesOf, hlines, List.getLast?_concat, if_pos rfl, List.dropLast_concat]

/-- Some texts, each ended by a line feed, have the lines of each of them. -/
theorem linesOf_join (texts : List String) :
    linesOf (String.join (texts.map (· ++ "\n"))) = texts.flatMap lines := by
  induction texts with
  | nil => decide
  | cons text rest ih =>
      rw [List.map_cons, String.join_cons, linesOf_append (unfinished_break text), ih,
        linesOf_append_break, List.flatMap_cons]

/-- Texts without line feeds, each ended by one, are the lines of the text that they make. -/
theorem linesOf_join_of_not_mem {texts : List String} (h : ∀ text ∈ texts, '\n' ∉ text.toList) :
    linesOf (String.join (texts.map (· ++ "\n"))) = texts := by
  rw [linesOf_join]
  induction texts with
  | nil => rfl
  | cons text rest ih =>
      obtain ⟨htext, hrest⟩ := List.forall_mem_cons.mp h
      rw [List.flatMap_cons, lines_of_not_mem htext, ih hrest, List.singleton_append]

/-- The lines of a text in two parts begin with the complete lines of the first. -/
theorem exists_linesOf_append (left right : String) :
    ∃ more, linesOf (left ++ right) = completeLines left ++ more := by
  rw [linesOf_eq, completeLines_append, List.append_assoc]
  exact ⟨_, rfl⟩

end LineCoverage.Text
