import TeamAccess.Proofs.Credential
import TeamAccess.Proofs.Text.Split

/-! # Signed tokens

A token is signed if its signature is the keyed hash of the text before it, under the secret and the
algorithm of the settings, and its header names that algorithm. Exactly the signed tokens with a
plain header and current claims are accepted, and the claims are the ones that the payload spells.
-/

namespace TeamAccess.Token

variable {cfg : Config} {now : Int} {token : String} {claims header : Members} {parts : Parts}

/-- The three texts of a token. -/
structure Segments where
  header : List Char
  payload : List Char
  signature : List Char

/-- The text that the signature is about. -/
def Segments.signed (s : Segments) : List Char := s.header ++ '.' :: s.payload

/-- A token is made of its segments: the header ends at the first dot and the signature begins
after the last one. -/
structure Segments.Cut (s : Segments) (token : String) : Prop where
  text : token.toList = s.signed ++ '.' :: s.signature
  header : '.' ∉ s.header
  signature : '.' ∉ s.signature

/-- A segment spells a JSON object. -/
def Spells (text : List Char) (members : Members) : Prop :=
  ∃ bytes, Text.Base64Url.decode? text = some bytes ∧ Json.parseBytes bytes = .ok (.obj members)

/-- A token with this header and these claims that was signed with the key of the settings. -/
inductive Signed (cfg : Config) (token : String) (header claims : Members) : Prop where
  | intro {s : Segments} {hash : Digest.HashName} : s.Cut token → Spells s.header header →
      Json.member? "alg" header = some (.str cfg.algorithm) →
      Algorithm.ofName? cfg.algorithm = some (.hmac hash) →
      Text.Base64Url.decode? s.signature = some (Digest.hmac hash
        (Text.Utf8.encode cfg.secret.toList) (Text.Utf8.encode s.signed)) →
      Spells s.payload claims → Signed cfg token header claims

section Split

theorem decodeSegment_eq_ok_iff {part : Segment} {text : List Char} {bytes : List UInt8} :
    decodeSegment part text = .ok bytes ↔ Text.Base64Url.decode? text = some bytes := by
  unfold decodeSegment
  cases Text.Base64Url.decode? text <;> simp

theorem decodeObject_eq_ok_iff {part : Segment} {bytes : List UInt8} {members : Members} :
    decodeObject part bytes = .ok members ↔ Json.parseBytes bytes = .ok (.obj members) := by
  unfold decodeObject
  cases Json.parseBytes bytes with
  | error e => simp
  | ok j => cases j <;> simp

theorem Segments.Cut.splitLast? {s : Segments} (h : s.Cut token) :
    Text.splitLast? '.' token.toList = some (s.signed, s.signature) :=
  Text.splitLast?_eq_some_iff.mpr ⟨h.text, h.signature⟩

theorem Segments.Cut.splitFirst? {s : Segments} (h : s.Cut token) :
    Text.splitFirst? '.' s.signed = some (s.header, s.payload) :=
  Text.splitFirst?_eq_some_iff.mpr ⟨rfl, h.header⟩

theorem cut_of_split_ok (h : split token = .ok parts) : ∃ s : Segments, s.Cut token := by
  unfold split at h
  split at h
  · rename_i signed signature hl
    split at h
    · rename_i header payload hf
      obtain ⟨ht, hs⟩ := Text.splitLast?_eq_some_iff.mp hl
      obtain ⟨rfl, hh⟩ := Text.splitFirst?_eq_some_iff.mp hf
      exact ⟨⟨header, payload, signature⟩, ht, hh, hs⟩
    · cases h
  · cases h

/-- The parts of a token are read from its segments. -/
theorem split_eq_ok_iff {s : Segments} (hc : s.Cut token) :
    split token = .ok parts ↔ parts.signed = s.signed ∧
      Spells s.header parts.header ∧ (isDetached parts.header && !s.payload.isEmpty) = false ∧
      Text.Base64Url.decode? s.payload = some parts.payload ∧
      Text.Base64Url.decode? s.signature = some parts.signature := by
  obtain ⟨signed, header, payload, signature⟩ := parts
  unfold split
  simp only [hc.splitLast?, hc.splitFirst?, bind_eq_ok_iff, decodeSegment_eq_ok_iff,
    decodeObject_eq_ok_iff]
  constructor
  · rintro ⟨bytes, hb, members, hm, h⟩
    split at h
    · cases h
    · rename_i hd
      simp only [bind_eq_ok_iff, decodeSegment_eq_ok_iff] at h
      obtain ⟨_, hp, _, hg, he⟩ := h
      cases he
      exact ⟨rfl, ⟨bytes, hb, hm⟩, by simpa using hd, hp, hg⟩
  · rintro ⟨rfl, ⟨bytes, hb, hm⟩, hd, hp, hg⟩
    refine ⟨bytes, hb, header, hm, ?_⟩
    rw [hd, if_neg Bool.false_ne_true]
    simp only [bind_eq_ok_iff, decodeSegment_eq_ok_iff]
    exact ⟨payload, hp, signature, hg, rfl⟩

end Split

section Header

theorem not_isDetached_of_checkHeader (h : checkHeader header = .ok ()) :
    isDetached header = false := by
  unfold checkHeader at h
  cases hd : isDetached header with
  | false => rfl
  | true =>
    simp only [hd, if_true] at h
    -- the last check stops every header that the checks before it let through
    have stop {α : Type} {x : Except Rejection α} {r : Rejection} :
        (x >>= fun _ => throw r) ≠ .ok () := by
      intro he
      obtain ⟨_, _, hr⟩ := bind_eq_ok_iff.mp he
      cases hr
    split at h
    · split at h
      · cases h
      · exact absurd h stop
      · cases h
    · split at h
      · cases h
      · exact absurd h stop
      · cases h
    · cases h

theorem signatureFits_eq_true_iff {a : Algorithm} {secret : String} :
    signatureFits a secret parts = true ↔ ∃ hash, a = .hmac hash ∧
      parts.signature = Digest.hmac hash (Text.Utf8.encode secret.toList)
        (Text.Utf8.encode parts.signed) := by
  cases a with
  | hmac hash =>
    simp only [signatureFits, sign, beq_iff_eq, Algorithm.hmac.injEq, exists_eq_left']
    exact eq_comm
  | unsigned => simp [signatureFits]

end Header

section Unique

/-- A token is made of its segments in one way. -/
theorem Segments.Cut.unique {s s' : Segments} (h : s.Cut token) (h' : s'.Cut token) : s = s' := by
  have hl := h.splitLast?
  rw [h'.splitLast?, Option.some.injEq, Prod.mk.injEq] at hl
  have hf := h.splitFirst?
  rw [← hl.1, h'.splitFirst?, Option.some.injEq, Prod.mk.injEq] at hf
  cases s
  cases s'
  simp_all

theorem Spells.unique {text : List Char} {claims claims' : Members} (h : Spells text claims)
    (h' : Spells text claims') : claims = claims' := by
  obtain ⟨bytes, hd, hp⟩ := h
  obtain ⟨_, hd', hp'⟩ := h'
  obtain rfl : bytes = _ := by simpa [hd] using hd'
  simpa [hp] using hp'

/-- A token carries one set of claims. -/
theorem Signed.unique {members' claims claims' : Members} (h : Signed cfg token members claims)
    (h' : Signed cfg token members' claims') : claims = claims' := by
  obtain ⟨hc, -, -, -, -, hp⟩ := h
  obtain ⟨hc', -, -, -, -, hp'⟩ := h'
  obtain rfl := hc.unique hc'
  exact hp.unique hp'

end Unique

theorem verify_eq_ok_iff_checks :
    verify cfg now token = .ok claims ↔ ∃ parts a, split token = .ok parts ∧
      checkHeader parts.header = .ok () ∧ checkAlgorithm cfg parts.header = .ok a ∧
      checkKey a cfg.secret = .ok () ∧ signatureFits a cfg.secret parts = true ∧
      Json.parseBytes parts.payload = .ok (.obj claims) ∧ checkClaims cfg now claims = .ok () := by
  unfold verify
  simp only [bind_eq_ok_iff, rejecting_eq_ok_iff, mapError_eq_ok_iff]
  constructor
  · rintro ⟨parts, hp, _, hh, a, ha, _, hk, h⟩
    split at h
    · cases h
    · rename_i hf
      simp only [bind_eq_ok_iff, rejecting_eq_ok_iff, decodeObject_eq_ok_iff] at h
      obtain ⟨_, hc, _, hcl, he⟩ := h
      cases he
      exact ⟨parts, a, hp, hh, ha, hk, by simpa using hf, hc, hcl⟩
  · rintro ⟨parts, a, hp, hh, ha, hk, hf, hc, hcl⟩
    refine ⟨parts, hp, (), hh, a, ha, (), hk, ?_⟩
    rw [hf]
    simp only [Bool.not_true, Bool.false_eq_true, if_false, bind_eq_ok_iff, rejecting_eq_ok_iff,
      decodeObject_eq_ok_iff]
    exact ⟨claims, hc, (), hcl, rfl⟩

/-- A token is accepted exactly if it is signed, its header asks for nothing that is unknown, its
key is one for HMAC, and its claims are current. -/
theorem verify_eq_ok_iff :
    verify cfg now token = .ok claims ↔ ∃ header, Signed cfg token header claims ∧
      checkHeader header = .ok () ∧
      (∀ a, Algorithm.ofName? cfg.algorithm = some a → checkKey a cfg.secret = .ok ()) ∧
      Current cfg now claims := by
  rw [verify_eq_ok_iff_checks]
  constructor
  · rintro ⟨parts, a, hp, hh, ha, hk, hf, hc, hcl⟩
    obtain ⟨hm, hn⟩ := checkAlgorithm_eq_ok_iff.mp ha
    obtain ⟨hash, rfl, hs⟩ := signatureFits_eq_true_iff.mp hf
    obtain ⟨s, hcut⟩ := cut_of_split_ok hp
    obtain ⟨ht, hsp, -, hpl, hsg⟩ := (split_eq_ok_iff hcut).mp hp
    rw [hs, ht] at hsg
    refine ⟨parts.header, .intro hcut hsp hm hn hsg ⟨parts.payload, hpl, hc⟩, hh, ?_,
      checkClaims_eq_ok_iff.mp hcl⟩
    rintro a hb
    obtain rfl : .hmac hash = a := by simpa [hn] using hb
    exact hk
  · rintro ⟨header, ⟨hcut, hsp, hm, hn, hsg, ⟨payload, hpl, hc⟩⟩, hh, hk, hcl⟩
    -- a header that passes its check never says that the payload is detached
    have plain := not_isDetached_of_checkHeader hh
    exact ⟨⟨_, header, payload, _⟩, _,
      (split_eq_ok_iff hcut).mpr ⟨rfl, hsp, by simp [plain], hpl, hsg⟩, hh,
      checkAlgorithm_eq_ok_iff.mpr ⟨hm, hn⟩, hk _ hn,
      signatureFits_eq_true_iff.mpr ⟨_, rfl, rfl⟩, hc, checkClaims_eq_ok_iff.mpr hcl⟩

/-- With a usable key a signed token is accepted with its claims as long as they are current, and
rejected at any other time. -/
theorem verify_signed (hu : cfg.Usable) (hs : Signed cfg token members payload)
    (hx : checkHeader members = .ok ()) (time : Int) :
    (Current cfg time payload → verify cfg time token = .ok payload) ∧
      (¬ Current cfg time payload →
        ∃ reason, verify cfg time token = .error (.rejected reason)) := by
  refine ⟨fun hc => verify_eq_ok_iff.mpr ⟨members, hs, hx, fun _ ha => hu.checkKey ha, hc⟩,
    fun hc => ?_⟩
  cases hv : verify cfg time token with
  | ok claims =>
    obtain ⟨_, hs', -, -, hc'⟩ := verify_eq_ok_iff.mp hv
    exact absurd (hs.unique hs' ▸ hc') hc
  | error e =>
    obtain ⟨reason, rfl⟩ := rejected_of_verify hu hv
    exact ⟨reason, rfl⟩

end TeamAccess.Token
