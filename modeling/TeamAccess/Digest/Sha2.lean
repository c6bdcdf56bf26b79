/-! # SHA-2

One compression function on words of `w` bits gives SHA-256 (32 bits), SHA-384 and SHA-512 (64
bits): the rotations, the first state and the number of bytes kept differ. The constants of the
32-bit form are the upper halves of those of the 64-bit form.
-/

namespace TeamAccess.Digest

/-- Two rotations, and a third one or a shift. -/
structure Mix where
  first : Nat
  second : Nat
  third : Nat

/-- A member of the family. -/
structure Sha2 (w : Nat) where
  constants : List (BitVec w)
  initial : List (BitVec w)
  sum0 : Mix
  sum1 : Mix
  step0 : Mix
  step1 : Mix
  size : Nat

/-- The first 64 bits of the fractions of the cube roots of the first 80 primes. -/
def roundConstants : List (BitVec 64) := [
  0x428a2f98d728ae22, 0x7137449123ef65cd, 0xb5c0fbcfec4d3b2f, 0xe9b5dba58189dbbc,
  0x3956c25bf348b538, 0x59f111f1b605d019, 0x923f82a4af194f9b, 0xab1c5ed5da6d8118,
  0xd807aa98a3030242, 0x12835b0145706fbe, 0x243185be4ee4b28c, 0x550c7dc3d5ffb4e2,
  0x72be5d74f27b896f, 0x80deb1fe3b1696b1, 0x9bdc06a725c71235, 0xc19bf174cf692694,
  0xe49b69c19ef14ad2, 0xefbe4786384f25e3, 0x0fc19dc68b8cd5b5, 0x240ca1cc77ac9c65,
  0x2de92c6f592b0275, 0x4a7484aa6ea6e483, 0x5cb0a9dcbd41fbd4, 0x76f988da831153b5,
  0x983e5152ee66dfab, 0xa831c66d2db43210, 0xb00327c898fb213f, 0xbf597fc7beef0ee4,
  0xc6e00bf33da88fc2, 0xd5a79147930aa725, 0x06ca6351e003826f, 0x142929670a0e6e70,
  0x27b70a8546d22ffc, 0x2e1b21385c26c926, 0x4d2c6dfc5ac42aed, 0x53380d139d95b3df,
  0x650a73548baf63de, 0x766a0abb3c77b2a8, 0x81c2c92e47edaee6, 0x92722c851482353b,
  0xa2bfe8a14cf10364, 0xa81a664bbc423001, 0xc24b8b70d0f89791, 0xc76c51a30654be30,
  0xd192e819d6ef5218, 0xd69906245565a910, 0xf40e35855771202a, 0x106aa07032bbd1b8,
  0x19a4c116b8d2d0c8, 0x1e376c085141ab53, 0x2748774cdf8eeb99, 0x34b0bcb5e19b48a8,
  0x391c0cb3c5c95a63, 0x4ed8aa4ae3418acb, 0x5b9cca4f7763e373, 0x682e6ff3d6b2b8a3,
  0x748f82ee5defb2fc, 0x78a5636f43172f60, 0x84c87814a1f0ab72, 0x8cc702081a6439ec,
  0x90befffa23631e28, 0xa4506cebde82bde9, 0xbef9a3f7b2c67915, 0xc67178f2e372532b,
  0xca273eceea26619c, 0xd186b8c721c0c207, 0xeada7dd6cde0eb1e, 0xf57d4f7fee6ed178,
  0x06f067aa72176fba, 0x0a637dc5a2c898a6, 0x113f9804bef90dae, 0x1b710b35131c471b,
  0x28db77f523047d84, 0x32caab7b40c72493, 0x3c9ebe0a15c9bebc, 0x431d67c49c100d4c,
  0x4cc5d4becb3e42b6, 0x597f299cfc657e2a, 0x5fcb6fab3ad6faec, 0x6c44198c4a475817]

/-- The first 64 bits of the fractions of the square roots of the first 8 primes. -/
def initialWords : List (BitVec 64) := [
  0x6a09e667f3bcc908, 0xbb67ae8584caa73b, 0x3c6ef372fe94f82b, 0xa54ff53a5f1d36f1,
  0x510e527fade682d1, 0x9b05688c2b3e6c1f, 0x1f83d9abfb41bd6b, 0x5be0cd19137e2179]

/-- The first 64 bits of the fractions of the square roots of the next 8 primes. -/
def nextWords : List (BitVec 64) := [
  0xcbbb9d5dc1059ed8, 0x629a292a367cd507, 0x9159015a3070dd17, 0x152fecd8f70e5939,
  0x67332667ffc00b31, 0x8eb44a8768581511, 0xdb0c2e0d64f98fa7, 0x47b5481dbefa4fa4]

/-- The upper half of a word. -/
def upper (x : BitVec 64) : BitVec 32 := x.extractLsb' 32 32

namespace Sha2

variable {w : Nat}

/-- Three rotations of a word, combined. -/
def sum (m : Mix) (x : BitVec w) : BitVec w :=
  x.rotateRight m.first ^^^ x.rotateRight m.second ^^^ x.rotateRight m.third

/-- Two rotations of a word and a shift, combined. -/
def step (m : Mix) (x : BitVec w) : BitVec w :=
  x.rotateRight m.first ^^^ x.rotateRight m.second ^^^ (x >>> m.third)

/-- The bytes of a number, the most significant one first. -/
def bigEndian : Nat → Nat → List UInt8
  | 0, _ => []
  | size + 1, n => UInt8.ofNat (n / 256 ^ size) :: bigEndian size n

/-- A message followed by a one bit, zero bits and its length in bits, filling whole blocks of 16
words. -/
def pad (wordBytes : Nat) (message : List UInt8) : List UInt8 :=
  let block := 16 * wordBytes
  let used := (message.length + 1 + 2 * wordBytes) % block
  message ++ 0x80 :: List.replicate ((block - used) % block) 0
    ++ bigEndian (2 * wordBytes) (8 * message.length)

/-- Cuts a list into pieces of `size` elements; the first argument bounds their number. -/
def chunks {α : Type} : Nat → Nat → List α → List (List α)
  | 0, _, _ => []
  | fuel + 1, size, xs =>
    if xs.isEmpty then [] else xs.take size :: chunks fuel size (xs.drop size)

/-- The words of a block. -/
def words (block : List UInt8) : List (BitVec w) :=
  (chunks block.length (w / 8) block).map fun bytes =>
    BitVec.ofNat w (bytes.foldl (fun n b => n * 256 + b.toNat) 0)

/-- Extends a message schedule, kept with its latest word first. -/
def extend (v : Sha2 w) : Nat → List (BitVec w) → List (BitVec w)
  | 0, schedule => schedule
  | n + 1, schedule =>
    let back (k : Nat) := schedule.getD (k - 1) 0
    extend v n
      ((step v.step1 (back 2) + back 7 + step v.step0 (back 15) + back 16) :: schedule)

/-- One round on the eight words of the state. -/
def round (v : Sha2 w) (state : List (BitVec w)) (kw : BitVec w) : List (BitVec w) :=
  match state with
  | [a, b, c, d, e, f, g, h] =>
    let t1 := h + sum v.sum1 e + ((e &&& f) ^^^ (~~~e &&& g)) + kw
    let t2 := sum v.sum0 a + ((a &&& b) ^^^ (a &&& c) ^^^ (b &&& c))
    [t1 + t2, a, b, c, d + t1, e, f, g]
  | other => other

/-- Takes a block into the state. -/
def compress (v : Sha2 w) (state : List (BitVec w)) (block : List UInt8) : List (BitVec w) :=
  let schedule := (extend v (v.constants.length - 16) (words block).reverse).reverse
  let final := (v.constants.zipWith (· + ·) schedule).foldl (round v) state
  state.zipWith (· + ·) final

/-- The digest of a message. -/
def digest (v : Sha2 w) (message : List UInt8) : List UInt8 :=
  let padded := pad (w / 8) message
  let final := (chunks padded.length (2 * w) padded).foldl (compress v) v.initial
  (final.flatMap fun x => bigEndian (w / 8) x.toNat).take v.size

/-- SHA-256. -/
def sha256 : Sha2 32 where
  constants := (roundConstants.take 64).map upper
  initial := initialWords.map upper
  sum0 := ⟨2, 13, 22⟩
  sum1 := ⟨6, 11, 25⟩
  step0 := ⟨7, 18, 3⟩
  step1 := ⟨17, 19, 10⟩
  size := 32

/-- SHA-512. -/
def sha512 : Sha2 64 where
  constants := roundConstants
  initial := initialWords
  sum0 := ⟨28, 34, 39⟩
  sum1 := ⟨14, 18, 41⟩
  step0 := ⟨1, 8, 7⟩
  step1 := ⟨19, 61, 6⟩
  size := 64

/-- SHA-384. -/
def sha384 : Sha2 64 := { sha512 with initial := nextWords, size := 48 }

end Sha2

end TeamAccess.Digest
