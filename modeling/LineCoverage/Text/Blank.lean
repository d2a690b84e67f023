/-!
# `LineCoverage.Text.Blank`: blank characters and trimming

A trace separates its columns by runs of blanks, and a disassembly is kept
without the blanks around it. Blank here means more than the ASCII space: the
engine prints paths and operands in any script, so the class is the
`White_Space` property of Unicode, together with the four information
separators `U+001C` to `U+001F`, which old terminals used as field marks.
-/

set_option autoImplicit false

namespace LineCoverage.Text

/-- The blank characters, in code point order. -/
def blanks : List Char :=
  ['\t', '\n', '\x0b', '\x0c', '\r', '\x1c', '\x1d', '\x1e', '\x1f', ' ', '\x85', '\xa0',
    '\u1680', '\u2000', '\u2001', '\u2002', '\u2003', '\u2004', '\u2005', '\u2006', '\u2007',
    '\u2008', '\u2009', '\u200a', '\u2028', '\u2029', '\u202f', '\u205f', '\u3000']

/-- Whether a character is blank. -/
def isBlank (c : Char) : Bool := blanks.contains c

/-- The text without its longest tail of characters in `drop`. -/
def dropTrailing (drop : Char → Bool) (text : List Char) : List Char :=
  (text.reverse.dropWhile drop).reverse

/-- The text without the blanks it starts with. -/
def trimStart (text : List Char) : List Char := text.dropWhile isBlank

/-- The text without the blanks it ends with. -/
def trimEnd (text : List Char) : List Char := dropTrailing isBlank text

end LineCoverage.Text
