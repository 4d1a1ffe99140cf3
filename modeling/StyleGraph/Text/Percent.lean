import StyleGraph.Text.Quoted
import StyleGraph.Text.Utf8

/-!
# Percent escapes

A `%` followed by two hexadecimal digits stands for one byte. Any other `%` stands for itself.
The bytes are read as UTF-8 afterwards, so an escape may hold a part of a character.
-/

set_option autoImplicit false

namespace StyleGraph.Text.Percent

/-- The bytes of a text with its escapes resolved. -/
def toBytes : List Char → List UInt8
  | [] => []
  | '%' :: a :: b :: rest =>
    match hexValue? a, hexValue? b with
    | some high, some low => UInt8.ofNat (high * 16 + low) :: toBytes rest
    | _, _ => 0x25 :: toBytes (a :: b :: rest)
  | c :: rest => String.utf8EncodeChar c ++ toBytes rest
termination_by cs => cs.length

/-- The text with its escapes resolved; bytes that are not UTF-8 become U+FFFD. -/
def decode (cs : List Char) : List Char := Utf8.decodeLossy (toBytes cs)

/-- A hexadecimal digit in upper case. -/
def upperDigit (n : Nat) : Char := (hexDigit n).toUpper

/-- How one character is written when only ASCII letters and digits stand for themselves. -/
def encodeChar (c : Char) : List Char :=
  if c.isAlphanum then [c]
  else
    (String.utf8EncodeChar c).flatMap fun byte =>
      ['%', upperDigit (byte.toNat / 16), upperDigit (byte.toNat % 16)]

/-- The text with every character escaped that is not an ASCII letter or digit. -/
def encode (cs : List Char) : List Char := cs.flatMap encodeChar

end StyleGraph.Text.Percent
