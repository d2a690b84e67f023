/-!
# `LineCoverage.Text.Lines`: lines and line breaks

Inside the library the line feed is the only line break, and the other
characters that some systems break lines at are part of a line. Files may come
from systems that write a carriage return, alone or before the line feed;
`unifyBreaks` turns both into the one break as files are read.

`intercalate_lines` says that splitting loses nothing.
-/

set_option autoImplicit false

namespace LineCoverage.Text

/-- The pieces of a text between its line feeds: one more than there are line feeds. -/
def lines (text : String) : List String :=
  (text.toList.splitOn '\n').map String.ofList

/-- The characters of the pieces, joined by line feeds, are those of the text. -/
theorem intercalate_lines (text : String) :
    ['\n'].intercalate ((lines text).map String.toList) = text.toList := by
  have hround : (String.toList ∘ String.ofList : List Char → List Char) = id := by
    funext cs
    exact String.toList_ofList
  rw [lines, List.map_map, hround, List.map_id, List.intercalate_splitOn]

/-- A scan for breaks: the text so far, last character first, and whether that character
stands for a carriage return. -/
structure BreakScan where
  done : List Char
  afterReturn : Bool

/-- A carriage return becomes a line feed, and a line feed right after one adds nothing. -/
def BreakScan.step (scan : BreakScan) (c : Char) : BreakScan :=
  if c = '\r' then ⟨'\n' :: scan.done, true⟩
  else if c = '\n' && scan.afterReturn then ⟨scan.done, false⟩
  else ⟨c :: scan.done, false⟩

/-- A text with the line feed as its only line break. -/
def unifyBreaks (text : List Char) : List Char :=
  (text.foldl BreakScan.step ⟨[], false⟩).done.reverse

/-- A string with the line feed as its only line break. -/
def unified (text : String) : String := String.ofList (unifyBreaks text.toList)

end LineCoverage.Text
