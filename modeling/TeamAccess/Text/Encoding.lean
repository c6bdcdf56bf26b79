import TeamAccess.Text.Hex
import TeamAccess.Text.Utf8

/-! # Text in an encoding that has to be guessed

JSON bytes name no encoding: a byte order mark or the place of the zero bytes among the first four
tells UTF-8, UTF-16 and UTF-32 apart. A lone surrogate, which no character stands for, is read as
U+FFFD.
-/

namespace TeamAccess.Text

/-- The order of the bytes of a code unit. -/
inductive ByteOrder where
  | little
  | big
  deriving DecidableEq, Repr

/-- An encoding of text. -/
inductive Encoding where
  | utf8
  | utf16 (order : ByteOrder)
  | utf32 (order : ByteOrder)
  deriving DecidableEq, Repr

/-- Why bytes are not a text of their encoding. -/
inductive DecodeFault where
  | utf8 (fault : Fault)
  | truncated
  | outOfRange
  deriving DecidableEq, Repr

/-- The first fault of a byte sequence: where it begins, the bytes it covers and its cause. -/
structure DecodeError where
  encoding : Encoding
  position : Nat
  bytes : List UInt8
  fault : DecodeFault

namespace Encoding

/-- The name used in error messages. -/
def name : Encoding → String
  | .utf8 => "utf-8"
  | .utf16 .little => "utf-16-le"
  | .utf16 .big => "utf-16-be"
  | .utf32 .little => "utf-32-le"
  | .utf32 .big => "utf-32-be"

/-- The byte order marks; the longer of two that begin alike comes first. -/
def marks : List (List UInt8 × Encoding) :=
  [([0x00, 0x00, 0xFE, 0xFF], .utf32 .big), ([0xFF, 0xFE, 0x00, 0x00], .utf32 .little),
    ([0xFE, 0xFF], .utf16 .big), ([0xFF, 0xFE], .utf16 .little), ([0xEF, 0xBB, 0xBF], .utf8)]

/-- The encoding of bytes without a byte order mark: the zeros among the first four tell it. -/
def ofZeros : List UInt8 → Encoding
  | a :: b :: c :: d :: _ =>
    if a == 0 then if b != 0 then .utf16 .big else .utf32 .big
    else if b == 0 then if c != 0 || d != 0 then .utf16 .little else .utf32 .little
    else .utf8
  | [a, b] => if a == 0 then .utf16 .big else if b == 0 then .utf16 .little else .utf8
  | _ => .utf8

/-- The encoding of some bytes and the bytes after the byte order mark. -/
def detect (bytes : List UInt8) : Encoding × List UInt8 :=
  match marks.find? (·.1.isPrefixOf bytes) with
  | some (mark, encoding) => (encoding, bytes.drop mark.length)
  | none => (ofZeros bytes, bytes)

/-- The number that a group of bytes spells. -/
def unit (order : ByteOrder) (group : List UInt8) : Nat :=
  let ordered := match order with
    | .big => group
    | .little => group.reverse
  ordered.foldl (fun n b => n * 256 + b.toNat) 0

/-- A code point as a character, U+FFFD for a surrogate. -/
def scalar (n : Nat) : Char :=
  if 0xD800 ≤ n && n < 0xE000 then '\uFFFD' else Char.ofNat n

/-- Joins surrogate pairs. -/
def joinUnits : List Nat → List Char
  | [] => []
  | [u] => [scalar u]
  | u :: v :: rest =>
    if 0xD800 ≤ u && u < 0xDC00 && 0xDC00 ≤ v && v < 0xE000 then
      Char.ofNat (0x10000 + (u - 0xD800) * 0x400 + (v - 0xDC00)) :: joinUnits rest
    else scalar u :: joinUnits (v :: rest)

/-- Reads UTF-16, the first byte being at `position`. -/
def decode16 (order : ByteOrder) (position : Nat) : List UInt8 → Except DecodeError (List Nat)
  | [] => .ok []
  | [a] => .error ⟨.utf16 order, position, [a], .truncated⟩
  | a :: b :: rest => do
    let units ← decode16 order (position + 2) rest
    return unit order [a, b] :: units

/-- Reads UTF-32, the first byte being at `position`. -/
def decode32 (order : ByteOrder) (position : Nat) : List UInt8 → Except DecodeError (List Char)
  | [] => .ok []
  | a :: b :: c :: d :: rest =>
    let n := unit order [a, b, c, d]
    if 0x10FFFF < n then .error ⟨.utf32 order, position, [a, b, c, d], .outOfRange⟩
    else do
      let text ← decode32 order (position + 4) rest
      return scalar n :: text
  | bytes => .error ⟨.utf32 order, position, bytes, .truncated⟩

/-- Reads UTF-8 pieces, the first one beginning at `position` of `bytes`. An encoded surrogate,
three faults to a strict reader, is one U+FFFD here. -/
def decode8 (bytes : List UInt8) : Nat → List Piece → Except DecodeError (List Char)
  | _, [] => .ok []
  | position, ⟨.ok c, size⟩ :: rest => do
    let text ← decode8 bytes (position + size) rest
    return c :: text
  | position, ⟨.error fault, size⟩ :: rest =>
    match bytes.drop position, rest with
    | 0xED :: a :: b :: _, ⟨_, 1⟩ :: ⟨_, 1⟩ :: after =>
      if 0xA0 ≤ a && a ≤ 0xBF && Utf8.isContinuation b then do
        let text ← decode8 bytes (position + 3) after
        return '\uFFFD' :: text
      else .error ⟨.utf8, position, (bytes.drop position).take size, .utf8 fault⟩
    | covered, _ => .error ⟨.utf8, position, covered.take size, .utf8 fault⟩

/-- The text that some bytes spell in the encoding they suggest. -/
def decode (bytes : List UInt8) : Except DecodeError (List Char) :=
  match detect bytes with
  | (.utf8, rest) => decode8 rest 0 (Utf8.pieces 0 rest)
  | (.utf16 order, rest) => (decode16 order (bytes.length - rest.length) rest).map joinUnits
  | (.utf32 order, rest) => decode32 order (bytes.length - rest.length) rest

end Encoding

namespace DecodeError

/-- The cause in words. -/
def reason : DecodeFault → String
  | .utf8 .start => "invalid start byte"
  | .utf8 .continuation => "invalid continuation byte"
  | .utf8 .truncated => "unexpected end of data"
  | .truncated => "truncated data"
  | .outOfRange => "code point not in range(0x110000)"

/-- One byte is named by its value, several by the positions of the first and the last. -/
def message (e : DecodeError) : String :=
  let place := match e.bytes with
    | [b] => s!"byte 0x{String.ofList (Hex.write 2 b.toNat)} in position {e.position}"
    | bytes => s!"bytes in position {e.position}-{e.position + bytes.length - 1}"
  s!"'{e.encoding.name}' codec can't decode {place}: {reason e.fault}"

end DecodeError

end TeamAccess.Text
