import TeamAccess.Proofs.Http.Caller
import TeamAccess.Proofs.Token.Issue

/-! # Which tokens are accepted, and when

Only genuine tokens with current claims are accepted. A token that is issued is accepted from the
second it was issued in until the second it expires in, and rejected before and after; as long as
it is accepted it names its subject.
-/

namespace TeamAccess.Token

variable {cfg : Config} {now ttl : Int}

/-- Only genuine tokens with current claims are accepted, and every other token is refused; with a
usable key it is the token that is rejected. -/
theorem verify_accepts_genuine (cfg : Config) (now : Int) (token : String) :
    (∀ claims, verify cfg now token = .ok claims →
      (∃ header, Signed cfg token header claims) ∧ Current cfg now claims) ∧
    ((∀ claims, Current cfg now claims → ∀ header, ¬ Signed cfg token header claims) →
      ∃ e, verify cfg now token = .error e ∧ (cfg.Usable → ∃ reason, e = .rejected reason)) := by
  have sound (claims : Members) (h : verify cfg now token = .ok claims) :
      (∃ header, Signed cfg token header claims) ∧ Current cfg now claims := by
    obtain ⟨header, hs, -, -, hc⟩ := verify_eq_ok_iff.mp h
    exact ⟨⟨header, hs⟩, hc⟩
  refine ⟨sound, fun h => ?_⟩
  cases hv : verify cfg now token with
  | ok claims =>
    obtain ⟨⟨header, hs⟩, hc⟩ := sound claims hv
    exact absurd hs (h claims hc header)
  | error e => exact ⟨e, rfl, fun hu => rejected_of_verify hu hv⟩

/-- A token that was just issued is genuine, and a text without dots is rejected. -/
theorem verify_accepts_genuine_issued :
    let cfg := Settings.tokenConfig {}
    (∃ token claims, issue cfg "ann" (.user .managed) 0 second = .ok token ∧
      verify cfg 0 token = .ok claims ∧ (∃ header, Signed cfg token header claims) ∧
      Current cfg 0 claims) ∧
    ∃ reason, verify cfg 0 "ann" = .error (.rejected reason) := by
  constructor
  · obtain ⟨token, hi, hs⟩ := @issue_signed (Settings.tokenConfig {}) "ann" .managed 0 second
      usable_default (by decide) (by decide)
    have hc : Current (Settings.tokenConfig {}) 0
        (claims (Settings.tokenConfig {}) "ann" .managed 0 second) :=
      (current_claims_iff (by decide)).mpr (by decide)
    have hv := (verify_signed usable_default hs rfl 0).1 hc
    obtain ⟨hs, hc⟩ := (verify_accepts_genuine (Settings.tokenConfig {}) 0 token).1 _ hv
    exact ⟨token, _, hi, hv, hs, hc⟩
  · have uncut (s : Segments) : ¬ s.Cut "ann" := fun h => by
      have hm : '.' ∈ "ann".toList := h.text ▸ by simp
      exact absurd hm (by decide)
    obtain ⟨e, he, hr⟩ := (verify_accepts_genuine (Settings.tokenConfig {}) 0 "ann").2
      fun _ _ _ ⟨hc, _, _, _, _, _⟩ => uncut _ hc
    obtain ⟨reason, rfl⟩ := hr usable_default
    exact ⟨reason, he⟩

/-- An issued token is accepted, with exactly the claims it was issued with, from the second it was
issued in until the second it expires in, and rejected at any other time. As long as it is accepted
it names its subject, unless that is empty. -/
theorem issue_authenticates (hu : cfg.Usable) (ha : cfg.audience ≠ "") (subject : String)
    (kind : UserKind) (hl : (ttl.fdiv day).natAbs ≤ 999999999)
    (hd : isDate (now + ttl) = true) :
    ∃ token, issue cfg subject (.user kind) now ttl = .ok token ∧ ∀ time,
      (wholeSeconds now * second ≤ time ∧ time < wholeSeconds (now + ttl) * second →
        verify cfg time token = .ok (claims cfg subject kind now ttl) ∧
        (subject ≠ "" →
          Http.Gate.identify cfg time (some token) none = .ok ⟨.user kind, subject⟩) ∧
        (subject = "" → ∃ detail,
          Http.Gate.identify cfg time (some token) none = .error (.refused 401 detail))) ∧
      (¬ (wholeSeconds now * second ≤ time ∧ time < wholeSeconds (now + ttl) * second) →
        ∃ reason, verify cfg time token = .error (.rejected reason)) := by
  obtain ⟨token, hi, hs⟩ := @issue_signed cfg subject kind now ttl hu hl hd
  refine ⟨token, hi, fun time => ?_⟩
  obtain ⟨accepts, rejects⟩ := verify_signed hu hs rfl time
  rw [current_claims_iff ha] at accepts rejects
  refine ⟨fun hc => ⟨accepts hc, fun hn => ?_, fun he => ?_⟩, rejects⟩
  · exact Http.Gate.identify_eq_ok_iff.mpr (.token (.inl rfl) rfl (accepts hc) rfl hn rfl)
  · cases hr : Http.Gate.identify cfg time (some token) none with
    | error f =>
      obtain ⟨detail, rfl⟩ := Http.Gate.identify_refuses hu hr
      exact ⟨detail, rfl⟩
    | ok ref =>
      cases Http.Gate.identify_eq_ok_iff.mp hr with
      | apiKey hk _ => cases hk
      | token _ ht hv hsub hn _ =>
        cases ht
        rw [accepts hc] at hv
        cases hv
        cases hsub
        exact absurd he hn

/-- The token of a user with a name outside ASCII counts from the second it was issued in, and not
any more an hour later. -/
theorem issue_authenticates_hour :
    let cfg := Settings.tokenConfig {}
    ∃ token, issue cfg "änn 🔑" (.user .oidc) 1700000000500000 (3600 * second) = .ok token ∧
      Http.Gate.identify cfg 1700000000000000 (some token) none =
        .ok ⟨.user .oidc, "änn 🔑"⟩ ∧
      ∃ reason, verify cfg 1700003600000000 token = .error (.rejected reason) := by
  obtain ⟨token, hi, h⟩ := @issue_authenticates (Settings.tokenConfig {}) 1700000000500000
    (3600 * second) usable_default (by decide) "änn 🔑" .oidc (by decide) (by decide)
  obtain ⟨-, named, -⟩ := (h 1700000000000000).1 (by decide)
  exact ⟨token, hi, named (by decide), (h 1700003600000000).2 (by decide)⟩

end TeamAccess.Token
