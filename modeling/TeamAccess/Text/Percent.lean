import TeamAccess.Text.Hex
import TeamAccess.Text.Utf8

/-! # Percent encoding

A byte is written as `%` and two hexadecimal digits. Reading never fails: a `%` without two digits
stands for itself, and bytes that are no UTF-8 become U+FFFD.
-/

namespace TeamAccess.Text.Percent

/-- The bytes that a text stands for. -/
def toBytes : List Char → List UInt8
  | '%' :: a :: b :: rest =>
    match Hex.read? [a, b] with
    | some n => UInt8.ofNat n :: toBytes rest
    | none => String.utf8EncodeChar '%' ++ toBytes (a :: b :: rest)
  | c :: rest => String.utf8EncodeChar c ++ toBytes rest
  | [] => []

/-- The text that a percent-encoded text stands for. -/
def decode (text : List Char) : List Char := Utf8.decodeLossy (toBytes text)

/-- The same on strings. -/
def decodeString (s : String) : String := String.ofList (decode s.toList)

/-- Letters, digits and the four marks that are never encoded. -/
def isUnreserved (c : Char) : Bool :=
  c.isAlphanum || c = '_' || c = '.' || c = '-' || c = '~'

/-- A byte as `%` and two digits in upper case. -/
def encodeByte (b : UInt8) : List Char := '%' :: (Hex.write 2 b.toNat).map Char.toUpper

/-- A character: itself if unreserved or among the `safe` ones, else its bytes encoded. -/
def encodeChar (safe : List Char) (c : Char) : List Char :=
  if isUnreserved c || safe.contains c then [c] else (String.utf8EncodeChar c).flatMap encodeByte

/-- Encodes all but the unreserved and the `safe` characters. -/
def encode (safe : List Char) (text : List Char) : List Char := text.flatMap (encodeChar safe)

/-- The same on strings. -/
def encodeString (safe : String) (s : String) : String :=
  String.ofList (encode safe.toList s.toList)

end TeamAccess.Text.Percent
