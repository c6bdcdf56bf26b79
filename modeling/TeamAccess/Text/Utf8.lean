/-! # UTF-8

A byte sequence is cut into pieces, each one a character or a fault that covers the longest
beginning of a character the bytes spell. Reading strictly reports the first fault with its
position; reading leniently puts U+FFFD in the place of each fault.
-/

namespace TeamAccess.Text

/-- Why some bytes spell no character. -/
inductive Fault where
  | start
  | continuation
  | truncated
  deriving DecidableEq, Repr

/-- A character or a fault, and the number of bytes it covers. -/
structure Piece where
  content : Except Fault Char
  size : Nat

namespace Utf8

/-- Bytes that may follow the first byte of a character of two or more bytes. -/
def isContinuation (b : UInt8) : Bool := 0x80 ≤ b && b ≤ 0xBF

/-- The bytes allowed in second place depend on the first: no overlong form, no surrogate, nothing
past U+10FFFF. -/
def isSecond (first b : UInt8) : Bool :=
  isContinuation b && !(first == 0xE0 && b < 0xA0) && !(first == 0xED && 0x9F < b)
    && !(first == 0xF0 && b < 0x90) && !(first == 0xF4 && 0x8F < b)

/-- The six bits that a continuation byte carries. -/
def low (b : UInt8) : Nat := b.toNat % 64

/-- The first piece of a nonempty byte sequence. -/
def look (b : UInt8) (rest : List UInt8) : Piece :=
  if b < 0x80 then ⟨.ok (Char.ofNat b.toNat), 1⟩
  else if b < 0xC2 || 0xF4 < b then ⟨.error .start, 1⟩
  else if b < 0xE0 then
    match rest with
    | [] => ⟨.error .truncated, 1⟩
    | c :: _ =>
      if isContinuation c then ⟨.ok (Char.ofNat (b.toNat % 32 * 64 + low c)), 2⟩
      else ⟨.error .continuation, 1⟩
  else if b < 0xF0 then
    match rest with
    | [] => ⟨.error .truncated, 1⟩
    | [c] => if isSecond b c then ⟨.error .truncated, 2⟩ else ⟨.error .continuation, 1⟩
    | c :: d :: _ =>
      if !isSecond b c then ⟨.error .continuation, 1⟩
      else if isContinuation d then
        ⟨.ok (Char.ofNat (b.toNat % 16 * 4096 + low c * 64 + low d)), 3⟩
      else ⟨.error .continuation, 2⟩
  else
    match rest with
    | [] => ⟨.error .truncated, 1⟩
    | [c] => if isSecond b c then ⟨.error .truncated, 2⟩ else ⟨.error .continuation, 1⟩
    | [c, d] =>
      if !isSecond b c then ⟨.error .continuation, 1⟩
      else if isContinuation d then ⟨.error .truncated, 3⟩
      else ⟨.error .continuation, 2⟩
    | c :: d :: e :: _ =>
      if !isSecond b c then ⟨.error .continuation, 1⟩
      else if !isContinuation d then ⟨.error .continuation, 2⟩
      else if isContinuation e then
        ⟨.ok (Char.ofNat (b.toNat % 8 * 262144 + low c * 4096 + low d * 64 + low e)), 4⟩
      else ⟨.error .continuation, 3⟩

/-- The pieces of a byte sequence, its first `skip` bytes left out. -/
def pieces : Nat → List UInt8 → List Piece
  | _, [] => []
  | skip + 1, _ :: rest => pieces skip rest
  | 0, b :: rest => look b rest :: pieces ((look b rest).size - 1) rest

/-- The bytes of a text. -/
def encode (text : List Char) : List UInt8 := text.flatMap String.utf8EncodeChar

/-- Reads leniently: U+FFFD stands for each fault. -/
def decodeLossy (bytes : List UInt8) : List Char :=
  (pieces 0 bytes).map fun p =>
    match p.content with
    | .ok c => c
    | .error _ => '\uFFFD'

end Utf8

end TeamAccess.Text
