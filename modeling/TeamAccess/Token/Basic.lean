import TeamAccess.Digest.Hmac
import TeamAccess.Text.Split
import TeamAccess.Text.Utf8

/-! # Token settings, algorithms and keys

Tokens are signed with HMAC. The algorithm `none` leaves a token unsigned and takes no key; the
algorithms that sign with a key pair are known by name only. A text that holds a private key, a
public key or a certificate is refused as an HMAC key.
-/

namespace TeamAccess.Token

/-- What tokens are issued and checked with. -/
structure Config where
  algorithm : String
  issuer : String
  audience : String
  secret : String
  deriving DecidableEq, Repr

/-- A way to sign. -/
inductive Algorithm where
  | hmac (hash : Digest.HashName)
  | unsigned
  deriving DecidableEq, Repr

/-- The algorithm of a name. -/
def Algorithm.ofName? : String → Option Algorithm
  | "HS256" => some (.hmac .sha256)
  | "HS384" => some (.hmac .sha384)
  | "HS512" => some (.hmac .sha512)
  | "none" => some .unsigned
  | _ => none

/-- The names of the algorithms that sign with a key pair. -/
def keyPairAlgorithms : List String :=
  ["RS256", "RS384", "RS512", "ES256", "ES256K", "ES384", "ES521", "ES512", "PS256", "PS384",
    "PS512", "EdDSA"]

/-- Why a secret is no key for an algorithm. -/
inductive KeyFault where
  | empty
  | asymmetric
  | superfluous
  deriving DecidableEq, Repr

/-- The cause in words. -/
def KeyFault.message : KeyFault → String
  | .empty => "HMAC key must not be empty."
  | .asymmetric => "The specified key is an asymmetric key or x509 certificate and should not be "
      ++ "used as an HMAC secret."
  | .superfluous => "When alg = \"none\", key value must be None."

/-- What a key file may hold. -/
def keyLabels : List String :=
  ["CERTIFICATE", "TRUSTED CERTIFICATE", "PRIVATE KEY", "PUBLIC KEY", "ENCRYPTED PRIVATE KEY",
    "OPENSSH PRIVATE KEY", "DSA PRIVATE KEY", "RSA PRIVATE KEY", "RSA PUBLIC KEY",
    "EC PRIVATE KEY", "DH PARAMETERS", "NEW CERTIFICATE REQUEST", "CERTIFICATE REQUEST",
    "SSH2 PUBLIC KEY", "SSH2 ENCRYPTED PRIVATE KEY", "X509 CRL"]

/-- The names of the formats of public keys for remote shells. -/
def shellKeyFormats : List String :=
  ["ssh-ed25519", "ssh-rsa", "ssh-dss", "ecdsa-sha2-nistp256", "ecdsa-sha2-nistp384",
    "ecdsa-sha2-nistp521"]

/-- The text after a beginning it has. -/
def afterText? (expected text : List Char) : Option (List Char) :=
  if expected.isPrefixOf text then some (text.drop expected.length) else none

/-- The text after a blank or a hyphen. -/
def afterMark? : List Char → Option (List Char)
  | '-' :: rest => some rest
  | ' ' :: rest => some rest
  | _ => none

/-- The text after the line that opens or closes a key of this label. -/
def afterRule? (verb : String) (label : String) (text : List Char) : Option (List Char) := do
  let text ← afterText? "----".toList text
  let text ← afterMark? text
  let text ← afterText? (verb ++ " " ++ label).toList text
  let text ← afterMark? text
  afterText? "----".toList text

/-- The text after the end of a line. -/
def afterNewline? : List Char → Option (List Char)
  | '\n' :: rest => some rest
  | '\r' :: '\n' :: rest => some rest
  | _ => none

/-- Whether a line ends here and the next one closes a key of this label. -/
def closes (text : List Char) (label : String) : Bool :=
  match text with
  | '\n' :: rest => (afterRule? "END" label rest).isSome
  | _ => false

/-- Whether a key of this label begins here: an opening line, at least one character, and a closing
line of the same label. -/
def opensKey (text : List Char) (label : String) : Bool :=
  match (afterRule? "BEGIN" label text).bind afterNewline? with
  | none => false
  | some body => Text.anySuffix (closes · label) (body.drop 1)

/-- Whether a text holds a key file. -/
def holdsKeyFile (text : List Char) : Bool :=
  Text.anySuffix (fun rest => keyLabels.any (opensKey rest)) text

/-- Whether one text occurs in another. -/
def occursIn (part text : List Char) : Bool := Text.anySuffix part.isPrefixOf text

/-- Whether a text holds a key for a remote shell or begins with a certificate of one. -/
def holdsShellKey (text : List Char) : Bool :=
  let blank (c : Char) := c = ' ' || ('\t' ≤ c && c ≤ '\r')
  let first := text.takeWhile (!blank ·)
  let gap := (text.drop first.length).takeWhile fun c => c = ' ' || c = '\t'
  let next := text.drop (first.length + gap.length)
  shellKeyFormats.any (fun f => occursIn f.toList text)
    || (!gap.isEmpty && next.head?.any (!blank ·)
      && "-cert-v01@openssh.com".toList.isSuffixOf first)

/-- Checks a secret for an algorithm. -/
def checkKey (algorithm : Algorithm) (secret : String) : Except KeyFault Unit :=
  match algorithm with
  | .unsigned => if secret = "" then .ok () else .error .superfluous
  | .hmac _ =>
    if holdsKeyFile secret.toList || holdsShellKey secret.toList then .error .asymmetric
    else if secret = "" then .error .empty
    else .ok ()

/-- The signature of a message. -/
def sign (algorithm : Algorithm) (secret : String) (message : List Char) : List UInt8 :=
  match algorithm with
  | .unsigned => []
  | .hmac hash =>
    Digest.hmac hash (Text.Utf8.encode secret.toList) (Text.Utf8.encode message)

end TeamAccess.Token
