import LineCoverage.Proofs.Trace.Grammar

/-!
# `LineCoverage.Proofs.Trace.Header`: where the path of a header ends

The path of a header is any text on one line, so it may hold colons, digits, the
closing dashes or a whole header. Still a line is a header in one way only: the
number behind the path has no colon in it, so the path ends at the last colon of
the line (`Record.Heads.eq_of_last_colon`). The number is a part of the name of
the script and is never read, so a header does not fail, however long its number
is.

`Reader.processLine_header` says which lines open a script and which script that
is.
-/

set_option autoImplicit false

namespace LineCoverage

open Text

namespace Record

/-- A line that is a header, with this path and this number. -/
structure Heads (line : String) (path number : List Char) : Prop where
  text : lineText line = "--- SCRIPT ".toList ++ path ++ ':' :: number ++ " ---".toList
  path : path ≠ []
  number : number ∈ atLeast 1 isDigit

variable {line : String} {path number : List Char}

/-- There is no colon behind the one in front of the number. -/
theorem Heads.colon_notMem (h : Heads line path number) :
    ':' ∉ number ++ " ---".toList := by
  intro hmem
  rcases List.mem_append.mp hmem with hnumber | hdashes
  · exact absurd (h.number.2 ':' hnumber) (by decide)
  · exact absurd hdashes (by decide)

/-- The whole line of a header. -/
theorem Heads.exists_line (h : Heads line path number) :
    ∃ returns, line.toList = "--- SCRIPT ".toList ++ path ++ ':' :: (number ++ " ---".toList
        ++ returns) ∧ ∀ c ∈ returns, c = '\r' := by
  obtain ⟨returns, hline, hreturns⟩ := exists_lineText_append line
  refine ⟨returns, ?_, hreturns⟩
  rw [hline, h.text]
  simp

/-- The path is all between the opening and the last colon of the line. -/
theorem Heads.eq_of_last_colon (h : Heads line path number) {front back : List Char}
    (hline : line.toList = "--- SCRIPT ".toList ++ front ++ ':' :: back) (hback : ':' ∉ back) :
    front = path := by
  obtain ⟨returns, hwhole, hreturns⟩ := h.exists_line
  have hbehind : ':' ∉ number ++ " ---".toList ++ returns := by
    intro hmem
    rcases List.mem_append.mp hmem with hnumber | hreturn
    · exact h.colon_notMem hnumber
    · cases hreturns ':' hreturn
  have hfront := (append_cons_inj_of_notMem hback hbehind (hline.symm.trans hwhole)).1
  exact List.append_cancel_left hfront

/-- A line is a header in one way only. -/
theorem Heads.unique (h : Heads line path number) {other run : List Char}
    (hother : Heads line other run) : other = path ∧ run = number := by
  have htext : "--- SCRIPT ".toList ++ other ++ ':' :: (run ++ " ---".toList)
      = "--- SCRIPT ".toList ++ path ++ ':' :: (number ++ " ---".toList) := by
    simpa using hother.text.symm.trans h.text
  obtain ⟨hfront, hback⟩ := append_cons_inj_of_notMem hother.colon_notMem h.colon_notMem htext
  exact ⟨List.append_cancel_left hfront, List.append_cancel_right hback⟩

/-- A header is read as its path and its number. -/
theorem Heads.ofLine? (h : Heads line path number) (hline : '\n' ∉ line.toList) :
    Record.ofLine? line = some (.header path number) := by
  have hpath : '\n' ∉ path := by
    intro hmem
    have htext := not_mem_lineText hline
    rw [h.text] at htext
    exact htext (by simp [hmem])
  have hbanner : banner? "--- SCRIPT " (lineText line) = some (path, number) := by
    obtain ⟨hnumber, hdigits⟩ := mem_atLeast_one.mp h.number
    exact banner?_eq_some_iff.mpr ⟨h.text, h.path, hpath, hnumber, hdigits⟩
  show ofText? (lineText line) = some (.header path number)
  unfold ofText?
  rw [hbanner]

/-- What is read as a header is one. -/
theorem heads_of_ofLine? (h : Record.ofLine? line = some (.header path number)) :
    Heads line path number := by
  obtain ⟨htext, hpath, -, hnumber, hdigits⟩ := banner?_eq_some_iff.mp (banner?_of_ofText? h)
  exact ⟨htext, hpath, mem_atLeast_one.mpr ⟨hnumber, hdigits⟩⟩

/-- Every header has a path and a number. -/
theorem isHeader_iff (hline : '\n' ∉ line.toList) :
    isHeader line = true ↔ ∃ path number, Heads line path number := by
  constructor
  · intro hheader
    obtain ⟨path, number, hrecord⟩ := exists_header hheader
    exact ⟨path, number, heads_of_ofLine? hrecord⟩
  · rintro ⟨path, number, hheads⟩
    simp [isHeader, hheads.ofLine? hline]

end Record

namespace Reader

/-- A line opens a script if it is a header, also if it fails. -/
theorem opened_processLine (sources : Sources) (reader : Reader) (line : String) :
    (reader.processLine sources line).2.opened
      = reader.opened + if Record.isHeader line then 1 else 0 := by
  rcases hline : reader.processLine sources line with ⟨fault | consumed, later⟩
  · have halike := alike_of_processLine_error hline
    obtain ⟨columns, script, hrecord, -⟩ := cause_of_processLine_error hline
    simp [opened, halike.current, halike.scriptCount, Record.isHeader, hrecord]
  · exact opened_of_processLine hline

/-- **A header is split at its last colon.** For every reader and every text on one line:

* the line opens one more script exactly if it is a header, and opens none if it is not;
* its path and its number are the only ones, and the path is all between the opening and the last
  colon;
* the new script has this path, and the path, a colon and the digits as they are written for a name.
  It is empty, the script before it is complete, and the line does not fail. -/
theorem processLine_header (sources : Sources) (reader : Reader) (line : String)
    (h : '\n' ∉ line.toList) :
    ((reader.processLine sources line).2.opened = reader.opened + 1 ↔
      ∃ path number, Record.Heads line path number) ∧
    ((¬ ∃ path number, Record.Heads line path number) →
      (reader.processLine sources line).2.opened = reader.opened) ∧
    ∀ path number, Record.Heads line path number →
      (∀ other run, Record.Heads line other run → other = path ∧ run = number) ∧
      (∀ front back, line.toList = "--- SCRIPT ".toList ++ front ++ ':' :: back →
        ':' ∉ back → front = path) ∧
      reader.processLine sources line
        = (.ok true,
            { reader with
              current := some ⟨String.ofList (path ++ ':' :: number), String.ofList path, #[]⟩
              completed := reader.completed ++ reader.current.toList
              scriptCount := reader.scriptCount + reader.current.toList.length }) := by
  rw [opened_processLine, ← Record.isHeader_iff h]
  refine ⟨?_, ?_, ?_⟩
  · cases Record.isHeader line <;> simp
  · intro hother
    rw [if_neg hother, Nat.add_zero]
  · intro path number hheads
    refine ⟨fun other run => hheads.unique, fun front back => hheads.eq_of_last_colon, ?_⟩
    rw [processLine_of_header reader (hheads.ofLine? h), close_eq]
    rfl

/-- A header whose path is a header. -/
theorem processLine_header_nested :
    processLine (fun _ => .ok "") (start none) "--- SCRIPT --- SCRIPT a b:1 ---:７ ---\r\r"
      = (.ok true,
          { start none with
            current := some ⟨"--- SCRIPT a b:1 ---:７", "--- SCRIPT a b:1 ---", #[]⟩ }) := by
  have hheads : Record.Heads "--- SCRIPT --- SCRIPT a b:1 ---:７ ---\r\r"
      "--- SCRIPT a b:1 ---".toList "７".toList :=
    ⟨by rfl, by decide, by decide⟩
  obtain ⟨-, -, hheader⟩ := processLine_header (fun _ => .ok "") (start none)
    "--- SCRIPT --- SCRIPT a b:1 ---:７ ---\r\r" (by decide)
  exact (hheader _ _ hheads).2.2

end Reader

end LineCoverage
