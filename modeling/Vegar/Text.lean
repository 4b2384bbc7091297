import Mathlib.Data.List.Basic

/-!
# Strings

Rust strings as lists of characters, and the functions of the standard
library that the kernel applies to them.
-/

namespace Vegar

/-- `String` and `str`. -/
abbrev Str := List Char

namespace Str

def lit (text : String) : Str := text.toList

/-- `str::from_utf8`. -/
def fromUtf8 (bytes : List UInt8) : Option Str :=
  (ByteArray.mk bytes.toArray).utf8Decode?.map Array.toList

/-- `char::is_ascii_whitespace`. -/
def isAsciiWhitespace (char : Char) : Bool :=
  char == ' ' || char == '\t' || char == '\n' || char == '\x0c' || char == '\r'

/-- `str::trim_ascii`. -/
def trimAscii (text : Str) : Str :=
  ((text.dropWhile isAsciiWhitespace).reverse.dropWhile isAsciiWhitespace).reverse

/-- `char::is_whitespace`: the characters with the property White_Space. -/
def isWhitespace (char : Char) : Bool :=
  let code := char.toNat
  (0x09 ≤ code && code ≤ 0x0d) || code == 0x20 || code == 0x85 ||
    code == 0xa0 || code == 0x1680 || (0x2000 ≤ code && code ≤ 0x200a) ||
    code == 0x2028 || code == 0x2029 || code == 0x202f || code == 0x205f ||
    code == 0x3000

/-- `str::trim`. -/
def trim (text : Str) : Str :=
  ((text.dropWhile isWhitespace).reverse.dropWhile isWhitespace).reverse

/-- `splitn(2, p)`: the parts before and after the first character that
satisfies `p`, or the whole text. -/
def splitTwo (separator : Char → Bool) (text : Str) : List Str :=
  match text.dropWhile fun char => !separator char with
  | [] => [text]
  | _ :: rest => [text.takeWhile fun char => !separator char, rest]

/-- `rsplit_once('/')` followed by taking the part behind, or all of the text
where there is no slash. -/
def afterLastSlash (text : Str) : Str := (text.reverse.takeWhile fun char => char != '/').reverse

/-- `trim_matches` of a character. -/
def trimMatches (char : Char) (text : Str) : Str :=
  ((text.dropWhile (· == char)).reverse.dropWhile (· == char)).reverse

/-- `rfind` of a character; positions count characters. -/
def rfind (char : Char) : Str → Option Nat
  | [] => none
  | first :: rest =>
      match rfind char rest with
      | some position => some (position + 1)
      | none => if first = char then some 0 else none

/-- `&text[start..stop]`; `none` is a panic. -/
def slice (text : Str) (start stop : Nat) : Option Str :=
  if start ≤ stop ∧ stop ≤ text.length then
    some ((text.take stop).drop start)
  else none

end Str

end Vegar
