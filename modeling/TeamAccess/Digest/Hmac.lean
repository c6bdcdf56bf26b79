import TeamAccess.Digest.Sha2

/-! # Keyed hashing

HMAC over the members of the SHA-2 family: the key is brought to the length of a block and combined
with two fixed bytes, once for the inner and once for the outer hash.
-/

namespace TeamAccess.Digest

/-- A hash function that HMAC is used with. -/
inductive HashName where
  | sha256
  | sha384
  | sha512
  deriving DecidableEq, Repr

namespace HashName

/-- The hash of a message. -/
def digest : HashName → List UInt8 → List UInt8
  | .sha256 => Sha2.digest Sha2.sha256
  | .sha384 => Sha2.digest Sha2.sha384
  | .sha512 => Sha2.digest Sha2.sha512

/-- The number of bytes that the function takes in at once. -/
def blockSize : HashName → Nat
  | .sha256 => 64
  | .sha384 | .sha512 => 128

end HashName

/-- A key in the length of a block: a longer one is hashed, a shorter one filled with zeros. -/
def blockKey (h : HashName) (key : List UInt8) : List UInt8 :=
  let short := if h.blockSize < key.length then h.digest key else key
  short ++ List.replicate (h.blockSize - short.length) 0

/-- The authentication code of a message under a key. -/
def hmac (h : HashName) (key message : List UInt8) : List UInt8 :=
  let k := blockKey h key
  h.digest (k.map (· ^^^ 0x5C) ++ h.digest (k.map (· ^^^ 0x36) ++ message))

end TeamAccess.Digest
