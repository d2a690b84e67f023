import LineCoverage.Text.Printable

/-!
# `LineCoverage.Text.Quoted`: names in quotation marks

Messages show a file name between quotation marks, so that blanks at its ends
and unprintable characters can be seen. The marks are single, unless the name
holds a single mark and no double one. Inside, the backslash and the mark itself
are written after a backslash, the line feed, carriage return and tab by their
letters, and any other unprintable character by its code, in two, four or eight
hexadecimal digits.
-/

set_option autoImplicit false

namespace LineCoverage.Text

/-- The mark around a name: double only where that spares a backslash. -/
def quotationMark (text : List Char) : Char :=
  if text.contains '\'' && !text.contains '"' then '"' else '\''

/-- The last `places` hexadecimal digits of a number, in lower case. -/
def hexDigits (places n : Nat) : List Char :=
  (List.range places).reverse.map fun place => Nat.digitChar (n >>> (4 * place) % 16)

/-- The code of a character behind the shortest letter that can hold it. -/
def charCode (c : Char) : List Char :=
  let n := c.toNat
  if n < 0x100 then '\\' :: 'x' :: hexDigits 2 n
  else if n < 0x10000 then '\\' :: 'u' :: hexDigits 4 n
  else '\\' :: 'U' :: hexDigits 8 n

/-- One character of a name between marks `mark`. -/
def quoteChar (mark c : Char) : List Char :=
  if c = mark || c = '\\' then ['\\', c]
  else if c = '\n' then ['\\', 'n']
  else if c = '\r' then ['\\', 'r']
  else if c = '\t' then ['\\', 't']
  else if isPrintable c then [c]
  else charCode c

/-- A name between its marks, as characters. -/
def quoteChars (text : List Char) : List Char :=
  let mark := quotationMark text
  mark :: text.flatMap (quoteChar mark) ++ [mark]

/-- A name between its marks. -/
def quoted (name : String) : String := String.ofList (quoteChars name.toList)

end LineCoverage.Text
