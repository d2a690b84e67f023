/-!
# `LineCoverage.Fault`: what can go wrong

Few things can fail: a file that cannot be opened, bytes that are no text, a
number too long to be read or written, a percentage beyond the range of its
format, a verdict nobody knows. Each is a cause with the facts that its message
tells; the wording stands in `message` alone. No function that can fail changes
what it was given: the state after a failure is always returned beside the
fault.
-/

set_option autoImplicit false

namespace LineCoverage

/-- Why a path cannot be opened. -/
inductive PathFault where
  /-- Nothing is there. -/
  | missing
  /-- A directory is there, where a file is wanted. -/
  | isDirectory
  /-- A file is there, where a directory is wanted. -/
  | notDirectory
  /-- One name on the path, or the path as a whole, is longer than a file system allows. -/
  | nameTooLong
  /-- Something on the path may not be used in this way. -/
  | denied
  deriving DecidableEq, Repr

/-- The file system's words for it. -/
def PathFault.message : PathFault → String
  | .missing => "No such file or directory"
  | .isDirectory => "Is a directory"
  | .notDirectory => "Not a directory"
  | .nameTooLong => "File name too long"
  | .denied => "Permission denied"

/-- The decimal digits that a number in a text may have. Reading and writing a number take time
that grows faster than its length, so a longer one is refused. -/
def maxDigits : Nat := 4300

/-- What can go wrong. -/
inductive Fault where
  /-- The file at `path` cannot be opened. -/
  | path (path : String) (cause : PathFault)
  /-- A path holds the character `U+0000`, which no file system can express. -/
  | nullInPath
  /-- The input holds bytes that are no text. What the decoder says about them is `report`. -/
  | undecodable (report : String)
  /-- Bytes of the input that are no text were to be written as text, from `position` on. -/
  | unencodable (position : Nat) (bytes : List UInt8)
  /-- A number of `digits` digits, more than `maxDigits`, was to be read. -/
  | numberTooLong (digits : Nat)
  /-- A number of more than `maxDigits` digits was to be written. -/
  | numberTooLongToWrite
  /-- A quotient is beyond the finite numbers of the binary format. -/
  | quotientTooLarge
  /-- `name` names no verdict. -/
  | unknownVerdict (name : String)
  /-- Something is looked for at a path that was asked for and not given. -/
  | lookupWithoutPath
  /-- A file is opened at a path that was asked for and not given. -/
  | openWithoutPath
  deriving DecidableEq, Repr

/-- The wording of a fault. A path that was not given is a list without paths, which the messages
name. -/
def Fault.message : Fault → String
  | .path _ cause => cause.message
  | .nullInPath => "embedded null byte"
  | .undecodable report => report
  | .unencodable position bytes =>
    -- Such a byte goes by the code of an unpaired surrogate, which has its digits at the end.
    let place := match bytes with
      | [byte] =>
        s!"character '\\udc{String.ofList (Nat.toDigits 16 byte.toNat)}' in position {position}"
      | _ => s!"characters in position {position}-{position + bytes.length - 1}"
    "'utf-8' codec can't encode " ++ place ++ ": surrogates not allowed"
  | .numberTooLong digits =>
    s!"Exceeds the limit ({maxDigits} digits) for integer string conversion: value has {digits}"
      ++ " digits; use sys.set_int_max_str_digits() to increase the limit"
  | .numberTooLongToWrite =>
    s!"Exceeds the limit ({maxDigits} digits) for integer string conversion"
      ++ "; use sys.set_int_max_str_digits() to increase the limit"
  | .quotientTooLarge => "integer division result too large for a float"
  | .unknownVerdict name => name
  | .lookupWithoutPath => "stat: path should be string, bytes, os.PathLike or integer, not list"
  | .openWithoutPath => "expected str, bytes or os.PathLike object, not list"

end LineCoverage
