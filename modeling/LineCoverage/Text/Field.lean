/-!
# `LineCoverage.Text.Field`: fields of a fixed width

Tables and blocks of a report align their columns by right-justified fields. A
name that is too wide for its field keeps its end, where the file name stands,
and loses its front.

`length_fit` gives the width of a field, whatever the text.
-/

set_option autoImplicit false

namespace LineCoverage.Text

/-- `text` with spaces in front up to `width` characters; a longer text stays as it is. -/
def justifyRight (width : Nat) (text : List Char) : List Char :=
  List.replicate (width - text.length) ' ' ++ text

/-- The last `width` characters of a text, or all of a shorter one. -/
def takeLast (width : Nat) (text : List Char) : List Char :=
  text.drop (text.length - width)

/-- A text in a right-justified field, cut on the left where it is too long. A width of zero
sets no limit. A negative width makes no field: it cuts as many characters off the front. -/
def fit (width : Int) (text : List Char) : List Char :=
  if width = 0 then text
  else if 0 < width then justifyRight width.toNat (takeLast width.toNat text)
  else text.drop width.natAbs

/-- `fit` on a string. -/
def field (width : Int) (text : String) : String := String.ofList (fit width text.toList)

/-- A field of positive width holds exactly that many characters. -/
theorem length_fit (width : Nat) (text : List Char) (h : 0 < width) :
    (fit width text).length = width := by
  have hpos : (0 : Int) < width := by omega
  have hne : ¬ (width : Int) = 0 := by omega
  simp only [fit, hne, hpos, if_false, if_true, justifyRight, takeLast, Int.toNat_natCast,
    List.length_append, List.length_replicate, List.length_drop]
  omega

/-- A text that is not too long is not cut. -/
theorem fit_of_length_le {width : Nat} {text : List Char} (h : 0 < width)
    (hfits : text.length ≤ width) :
    fit width text = List.replicate (width - text.length) ' ' ++ text := by
  have hpos : (0 : Int) < width := by omega
  have hne : ¬ (width : Int) = 0 := by omega
  have hwhole : text.length - width = 0 := by omega
  simp only [fit, hne, hpos, if_false, if_true, justifyRight, takeLast, Int.toNat_natCast, hwhole,
    List.drop_zero]

end LineCoverage.Text
