import TeamAccess.Credential
import TeamAccess.Proofs.Token.Check
import TeamAccess.Settings.Basic

/-! # Whom credentials name

An API key that is not empty names itself. Otherwise a token names a user if it is accepted, has a
subject that is not empty and the kind of a partition; all other credentials are rejected. With a
usable key, checking a token never fails for want of one.
-/

namespace TeamAccess

namespace Token

variable {cfg : Config} {now : Int} {token : String} {fault : KeyFault} {α β : Type}

/-- A secret that HMAC takes, and an algorithm that signs with it. -/
structure Config.Usable (cfg : Config) : Prop where
  algorithm : cfg.algorithm ∈ ["HS256", "HS384", "HS512"]
  nonEmpty : cfg.secret ≠ ""
  noKeyFile : holdsKeyFile cfg.secret.toList = false
  noShellKey : holdsShellKey cfg.secret.toList = false

theorem Config.Usable.hmac (h : cfg.Usable) :
    ∃ hash, Algorithm.ofName? cfg.algorithm = some (.hmac hash) := by
  have hm := h.algorithm
  simp only [List.mem_cons, List.not_mem_nil, or_false] at hm
  rcases hm with hm | hm | hm <;> exact ⟨_, by rw [hm]; rfl⟩

theorem Config.Usable.checkKey (h : cfg.Usable) {a : Algorithm}
    (ha : Algorithm.ofName? cfg.algorithm = some a) : checkKey a cfg.secret = .ok () := by
  obtain ⟨hash, hn⟩ := h.hmac
  obtain rfl : .hmac hash = a := by simpa [hn] using ha
  simp [Token.checkKey, h.noKeyFile, h.noShellKey, h.nonEmpty]

/-- The key of the default settings is usable. -/
theorem usable_default : (Settings.tokenConfig {}).Usable :=
  ⟨by decide, by decide, by decide +kernel, by decide +kernel⟩

theorem rejecting_ne_key (x : Except Rejection α) : rejecting x ≠ .error (.key fault) := by
  intro h
  cases x with
  | ok a => cases h
  | error e => cases h

theorem bind_ne_key {x : Except VerifyError α} {g : α → Except VerifyError β}
    (hx : x ≠ .error (.key fault)) (hg : ∀ a, x = .ok a → g a ≠ .error (.key fault)) :
    (x >>= g) ≠ .error (.key fault) := by
  cases x with
  | ok a => exact hg a rfl
  | error e => exact fun h => hx (by cases h; rfl)

/-- With a usable key a token is accepted or rejected. -/
theorem verify_ne_key (h : cfg.Usable) : verify cfg now token ≠ .error (.key fault) := by
  unfold verify
  refine bind_ne_key (rejecting_ne_key _) fun parts _ => ?_
  refine bind_ne_key (rejecting_ne_key _) fun _ _ => ?_
  refine bind_ne_key (rejecting_ne_key _) fun a ha => ?_
  have hk := h.checkKey (checkAlgorithm_eq_ok_iff.mp (rejecting_eq_ok_iff.mp ha)).2
  rw [hk]
  have hu : Except.mapError VerifyError.key (.ok ()) ≠ .error (.key fault) := nofun
  refine bind_ne_key hu fun _ _ => ?_
  split
  · exact bind_ne_key nofun nofun
  · refine bind_ne_key (rejecting_ne_key _) fun payload _ => ?_
    exact bind_ne_key (rejecting_ne_key _) fun _ _ => nofun

theorem rejected_of_verify (h : cfg.Usable) {e : VerifyError}
    (hv : verify cfg now token = .error e) : ∃ reason, e = .rejected reason := by
  cases e with
  | rejected reason => exact ⟨reason, rfl⟩
  | key fault => exact absurd hv (verify_ne_key h)

end Token

theorem PrincipalKind.ofText?_eq_some {text : String} {k : PrincipalKind}
    (h : ofText? text = some k) : text = k.text := by
  unfold ofText? at h
  split at h <;> cases h <;> rfl

namespace CallerRef

variable {cfg : Token.Config} {now : Int} {token apiKey : Option String} {ref : CallerRef}

/-- What credentials name. -/
inductive NamedBy (cfg : Token.Config) (now : Int) (token apiKey : Option String) :
    CallerRef → Prop where
  | apiKey {key : String} : apiKey = some key → key ≠ "" →
      NamedBy cfg now token apiKey ⟨.apiKey, key⟩
  | token {text username : String} {kind : UserKind} {claims : Token.Members} :
      apiKey = none ∨ apiKey = some "" → token = some text →
      Token.verify cfg now text = .ok claims →
      Json.member? "sub" claims = some (.str username) → username ≠ "" →
      Json.member? "kind" claims = some (.str kind.text) →
      NamedBy cfg now token apiKey ⟨.user kind, username⟩

theorem text_eq_iff {claims : Token.Members} {name text : String} (ht : text ≠ "") :
    ((Json.member? name claims).bind Json.text?).getD "" = text ↔
      Json.member? name claims = some (.str text) := by
  cases hm : Json.member? name claims with
  | none => simpa using ht.symm
  | some value => cases value <;> simp [Json.text?, ht.symm]

theorem ofClaims_eq_ok_iff {claims : Token.Members} :
    ofClaims claims = .ok ref ↔ ∃ kind username, ref = ⟨.user kind, username⟩ ∧
      Json.member? "sub" claims = some (.str username) ∧ username ≠ "" ∧
      Json.member? "kind" claims = some (.str kind.text) := by
  constructor
  · intro h
    unfold ofClaims at h
    dsimp only at h
    split at h
    · cases h
    · rename_i hs
      split at h
      · rename_i kind hk
        cases h
        have hn : kind.text ≠ "" := by cases kind <;> decide
        refine ⟨kind, _, rfl, (text_eq_iff hs).mp rfl, hs, (text_eq_iff hn).mp ?_⟩
        exact PrincipalKind.ofText?_eq_some hk
      · cases h
  · rintro ⟨kind, username, rfl, hs, hn, hk⟩
    have ht := PrincipalKind.ofText?_text (.user kind)
    simp only [PrincipalKind.text] at ht
    simp [ofClaims, hs, hk, Json.text?, hn, ht]

theorem filter_eq_some_iff {o : Option String} {a : String} :
    o.filter (· != "") = some a ↔ o = some a ∧ a ≠ "" := by
  simp [Option.filter_eq_some_iff]

theorem filter_eq_none_iff {o : Option String} :
    o.filter (· != "") = none ↔ o = none ∨ o = some "" := by
  cases o <;> simp [Option.filter_eq_none_iff]

/-- The caller that credentials are taken for is the one that they name. -/
theorem ofCredentials_eq_ok_iff :
    ofCredentials cfg now token apiKey = .ok ref ↔ NamedBy cfg now token apiKey ref := by
  constructor
  · intro h
    unfold ofCredentials at h
    split at h
    · rename_i key hk
      cases h
      obtain ⟨hk, hn⟩ := filter_eq_some_iff.mp hk
      exact .apiKey hk hn
    · cases h
    · rename_i text hk ht
      split at h
      · cases h
      · cases h
      · rename_i claims hv
        obtain ⟨kind, username, rfl, hs, hn, hc⟩ := ofClaims_eq_ok_iff.mp h
        exact .token (filter_eq_none_iff.mp hk) (filter_eq_some_iff.mp ht).1 hv hs hn hc
  · intro h
    cases h with
    | apiKey hk hn => simp [ofCredentials, filter_eq_some_iff.mpr ⟨hk, hn⟩]
    | @token text username kind claims hk ht hv hs hn hc =>
      have hne : text ≠ "" := by
        rintro rfl
        cases hv
      have hr := ofClaims_eq_ok_iff.mpr ⟨kind, username, rfl, hs, hn, hc⟩
      simp [ofCredentials, filter_eq_none_iff.mpr hk, filter_eq_some_iff.mpr ⟨ht, hne⟩, hv, hr]

/-- With a usable key, credentials that name nobody are rejected. -/
theorem ofCredentials_ne_key (h : cfg.Usable) (fault : Token.KeyFault) :
    ofCredentials cfg now token apiKey ≠ .error (.key fault) := by
  intro hc
  unfold ofCredentials at hc
  split at hc
  · cases hc
  · cases hc
  · split at hc
    · cases hc
    · rename_i hv
      exact Token.verify_ne_key h hv
    · rename_i claims _
      unfold ofClaims at hc
      dsimp only at hc
      split at hc
      · cases hc
      · split at hc <;> cases hc

end CallerRef

end TeamAccess
