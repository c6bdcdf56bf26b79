import TeamAccess.Proofs.Outcome
import TeamAccess.Token.Verify

/-! # What each check of a token accepts

A check passes exactly if what it is about is as it has to be. The checks of the claims together
pass if the claims are current: complete, within their times, and of the issuer and the audience of
the settings.
-/

namespace TeamAccess.Token

variable {cfg : Config} {now : Int} {claims header : Members}

theorem rejecting_eq_ok_iff {α : Type} {y : Except Rejection α} {a : α} :
    rejecting y = .ok a ↔ y = .ok a :=
  mapError_eq_ok_iff

section Header

theorem checkAlgorithm_eq_ok_iff {a : Algorithm} :
    checkAlgorithm cfg header = .ok a ↔
      Json.member? "alg" header = some (.str cfg.algorithm) ∧
        Algorithm.ofName? cfg.algorithm = some a := by
  unfold checkAlgorithm
  cases hm : Json.member? "alg" header with
  | none => simp
  | some value =>
    cases value with
    | str name =>
      by_cases hn : name = cfg.algorithm
      · subst hn
        by_cases he : cfg.algorithm = ""
        · simp [he, Algorithm.ofName?]
        · cases ha : Algorithm.ofName? cfg.algorithm <;> simp [he, ha]
      · simp [hn]
    | _ => simp

end Header

section Claims

/-- A claim is there and holds a time of which a condition is true. -/
def Dated (claims : Members) (claim : TimeClaim) (holds : Int → Prop) : Prop :=
  ∃ value t, Json.member? claim.name claims = some value ∧ asInteger? value = some t ∧ holds t

/-- A claim is there and not null. -/
def Present (claims : Members) (name : String) : Prop :=
  ∃ value, Json.member? name claims = some value ∧ value ≠ .null

/-- The values that address an audience: its name, or a list of names with its name among them. -/
inductive Addresses (audience : String) : Json → Prop where
  | name : audience ≠ "" → Addresses audience (.str audience)
  | list {names : List String} : audience ∈ names → Addresses audience (Json.texts names)

/-- The claims that hold at a time under some settings. -/
structure Current (cfg : Config) (now : Int) (claims : Members) : Prop where
  complete : ∀ name ∈ requiredClaims, Present claims name
  issued : Dated claims .issuedAt fun t => t * second ≤ now
  started : Json.member? "nbf" claims = none ∨ Dated claims .notBefore fun t => t * second ≤ now
  unexpired : Dated claims .expires fun t => now < t * second
  issuer : Json.member? "iss" claims = some (.str cfg.issuer)
  audience : ∃ value, Json.member? "aud" claims = some value ∧ Addresses cfg.audience value
  subject : ∃ username, Json.member? "sub" claims = some (.str username)
  tokenId : Json.member? "jti" claims = none ∨ ∃ id, Json.member? "jti" claims = some (.str id)

theorem checkRequired_eq_ok_iff :
    checkRequired claims = .ok () ↔ ∀ name ∈ requiredClaims, Present claims name := by
  have present (name : String) : hasClaim claims name = true ↔ Present claims name := by
    unfold hasClaim Present
    split <;> simp_all
  simp only [← present]
  unfold checkRequired
  split
  · rename_i name h
    have hn : (!hasClaim claims name) = true :=
      List.find?_some (p := fun name => !hasClaim claims name) h
    exact iff_of_false nofun fun hp => by simp [hp name (List.mem_of_find?_eq_some h)] at hn
  · rename_i h
    simpa using h

theorem checkTime_eq_ok_iff {claim : TimeClaim} {failure : Rejection} {holds : Int → Prop}
    [DecidablePred holds] :
    checkTime claim failure (fun t => decide (holds t)) claims = .ok () ↔
      Json.member? claim.name claims = none ∨ Dated claims claim holds := by
  unfold checkTime Dated
  cases hm : Json.member? claim.name claims with
  | none => simp
  | some value => cases ha : asInteger? value <;> simp [ha]

theorem checkIssuer_eq_ok_iff :
    checkIssuer cfg claims = .ok () ↔ Json.member? "iss" claims = some (.str cfg.issuer) := by
  unfold checkIssuer
  cases hm : Json.member? "iss" claims with
  | none => simp
  | some value => cases value <;> simp

theorem mapM_eq_ok_iff {f : Json → Except Rejection String} {items : List Json}
    {names : List String} (hf : ∀ item name, f item = .ok name ↔ item = .str name) :
    items.mapM f = .ok names ↔ items = names.map .str := by
  induction items generalizing names with
  | nil => cases names <;> simp [pure, Except.pure]
  | cons item items ih =>
    simp only [List.mapM_cons, bind_eq_ok_iff, hf]
    cases names with
    | nil => simp [pure, Except.pure]
    | cons name names =>
      simp only [ih, pure, Except.pure, Except.ok.injEq, List.cons.injEq, List.map_cons]
      constructor
      · rintro ⟨_, h, _, hr, rfl, rfl⟩
        exact ⟨h, hr⟩
      · rintro ⟨h, hr⟩
        exact ⟨name, h, names, hr, rfl, rfl⟩

theorem audienceOf_eq_ok_iff {value : Json} {names : List String} :
    audienceOf value = .ok names ↔
      (∃ name, value = .str name ∧ names = [name]) ∨ value = Json.texts names := by
  cases value with
  | str s => simp [audienceOf, Json.texts, eq_comm]
  | arr items =>
    simp only [audienceOf, Json.texts, Json.arr.injEq]
    rw [mapM_eq_ok_iff]
    · simp
    · intro item name
      cases item <;> simp
  | _ => simp [audienceOf, Json.texts]

/-- A value addresses an audience if it counts as true and the audience is among its names. -/
theorem addresses_iff {audience : String} {value : Json} :
    Addresses audience value ↔
      value.truthy = true ∧ ∃ names, audienceOf value = .ok names ∧ audience ∈ names := by
  constructor
  · intro h
    cases h with
    | name hn => exact ⟨by simpa [Json.truthy] using hn, [audience], rfl, List.mem_singleton_self _⟩
    | @list names hm =>
      have hne : names ≠ [] := List.ne_nil_of_mem hm
      exact ⟨by simpa [Json.truthy, Json.texts] using hne, names,
        audienceOf_eq_ok_iff.mpr (.inr rfl), hm⟩
  · rintro ⟨ht, names, ha, hm⟩
    rcases audienceOf_eq_ok_iff.mp ha with ⟨name, rfl, rfl⟩ | rfl
    · obtain rfl := List.mem_singleton.mp hm
      exact .name (by simpa [Json.truthy] using ht)
    · exact .list hm

theorem checkAudience_eq_ok_iff :
    checkAudience cfg claims = .ok () ↔
      ∃ value, Json.member? "aud" claims = some value ∧ Addresses cfg.audience value := by
  unfold checkAudience
  cases hm : Json.member? "aud" claims with
  | none => simp
  | some value =>
    simp only [Option.some.injEq, exists_eq_left', addresses_iff]
    cases ht : value.truthy with
    | false => simp
    | true =>
      simp only [Bool.not_true, Bool.false_eq_true, if_false, bind_eq_ok_iff, true_and]
      refine exists_congr fun names => and_congr_right fun _ => ?_
      by_cases hn : cfg.audience ∈ names <;> simp [hn, pure, Except.pure]

theorem checkText_eq_ok_iff {name : String} {failure : Rejection} :
    checkText name failure claims = .ok () ↔
      Json.member? name claims = none ∨ ∃ s, Json.member? name claims = some (.str s) := by
  unfold checkText
  cases hm : Json.member? name claims with
  | none => simp
  | some value => cases value <;> simp

/-- The claims of a token pass the checks exactly if they are current. -/
theorem checkClaims_eq_ok_iff : checkClaims cfg now claims = .ok () ↔ Current cfg now claims := by
  unfold checkClaims
  simp only [check_bind_eq_ok_iff, checkRequired_eq_ok_iff, checkTime_eq_ok_iff,
    checkIssuer_eq_ok_iff, checkAudience_eq_ok_iff, checkText_eq_ok_iff]
  constructor
  · rintro ⟨hc, hi, hn, he, hs, ha, hu, ht⟩
    -- what is required is there, so that the checks of it cannot have passed for want of it
    have there (name : String) (hr : name ∈ requiredClaims) : Json.member? name claims ≠ none := by
      obtain ⟨value, hv, -⟩ := hc name hr
      simp [hv]
    exact ⟨hc, hi.resolve_left (there "iat" (by decide)), hn,
      he.resolve_left (there "exp" (by decide)), hs, ha,
      hu.resolve_left (there "sub" (by decide)), ht⟩
  · rintro ⟨hc, hi, hn, he, hs, ha, hu, ht⟩
    exact ⟨hc, .inr hi, hn, .inr he, hs, ha, .inr hu, ht⟩

end Claims

end TeamAccess.Token
