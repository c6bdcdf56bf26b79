import TeamAccess.Proofs.Json.Number
import TeamAccess.Proofs.Text.Quoted
import TeamAccess.Settings.Basic

/-! # What the printed form of the settings shows

The fields are printed one after the other, and each one ends where the next one begins, whatever
characters it holds. So the printed form leaves out the secret of the tokens and nothing else: what
a database URL holds is printed with it, a password included.
-/

namespace TeamAccess.Settings

open Text.Quoted

variable {s t : Settings} {x y : List Char}

theorem env_text_injective {a b : Environment} (h : a.text = b.text) : a = b := by
  cases a <;> cases b <;> first | rfl | exact absurd h (by decide)

theorem toList_toString (n : Int) : (toString n).toList = Json.printInt n := by
  cases n with
  | ofNat m => simp [toString, Int.repr, Nat.repr, Json.printInt]
  | negSucc m => simp [toString, Int.repr, Nat.repr, Json.printInt]

/-- A number is told apart from what follows it if that begins with a comma. -/
theorem printInt_append_inj {i j : Int} {label : List Char} (hl : label.head? = some ',')
    (h : Json.printInt i ++ (label ++ x) = Json.printInt j ++ (label ++ y)) : i = j ∧ x = y := by
  obtain ⟨rest, rfl⟩ := List.head?_eq_some_iff.mp hl
  have read := congrArg (fun text => Json.readExponent ('e' :: text)) h
  simp only [List.cons_append, Json.readExponent_printInt (.comma _)] at read
  obtain ⟨hi, hx⟩ := Prod.mk.inj read
  exact ⟨Option.some.inj hi, List.append_cancel_left (List.cons.inj hx).2⟩

/-- A name that may be missing, as it is printed. -/
def shown (name : Option String) : List Char := name.elim "None".toList fun n => (quote n).toList

theorem shown_append_inj {a b : Option String} (h : shown a ++ x = shown b ++ y) : a = b := by
  have bare (n : String) {x y : List Char} : (quote n).toList ++ x ≠ 'N' :: y := by
    obtain ⟨rest, hq⟩ := quote_cons n
    rw [hq]
    intro h
    have first := (List.cons.inj h).1
    rcases isMark_mark n.toList with hm | hm <;> rw [hm] at first <;> exact absurd first (by decide)
  cases a with
  | none =>
    cases b with
    | none => rfl
    | some n => exact absurd h.symm (bare n)
  | some m =>
    cases b with
    | none => exact absurd h (bare m)
    | some n => exact congrArg some (quote_append_inj h).1

theorem toList_display (s : Settings) : s.display.toList =
    "Settings(env=".toList ++ (quote s.env.text).toList ++
      ", service_name=".toList ++ (quote s.serviceName).toList ++
      ", log_level=".toList ++ (quote s.logLevel).toList ++
      ", api_host=".toList ++ (quote s.apiHost).toList ++
      ", api_port=".toList ++ Json.printInt s.apiPort ++
      ", jwt_alg=".toList ++ (quote s.jwtAlg).toList ++
      ", jwt_issuer=".toList ++ (quote s.jwtIssuer).toList ++
      ", jwt_audience=".toList ++ (quote s.jwtAudience).toList ++
      ", database_url=".toList ++ (quote s.databaseUrl).toList ++
      ", bootstrap_admin_username=".toList ++ shown s.bootstrapAdmin ++ [')'] := by
  rw [← toList_toString]
  cases hs : s.bootstrapAdmin <;> simp [display, shown, hs]

/-- A quoted field is read off after its label. -/
theorem field_inj {label : List Char} {a b : String}
    (h : label ++ ((quote a).toList ++ x) = label ++ ((quote b).toList ++ y)) : a = b ∧ x = y :=
  quote_append_inj (List.append_cancel_left h)

/-- Each field that is printed can be read off, and only the secret of the tokens is not printed. -/
theorem eq_of_display_eq (h : s.display = t.display) : s = { t with jwtSecret := s.jwtSecret } := by
  have h := congrArg String.toList h
  simp only [toList_display, List.append_assoc] at h
  obtain ⟨env, h⟩ := field_inj h
  obtain ⟨serviceName, h⟩ := field_inj h
  obtain ⟨logLevel, h⟩ := field_inj h
  obtain ⟨apiHost, h⟩ := field_inj h
  obtain ⟨apiPort, h⟩ := printInt_append_inj (by simp) (List.append_cancel_left h)
  obtain ⟨jwtAlg, h⟩ := quote_append_inj h
  obtain ⟨jwtIssuer, h⟩ := field_inj h
  obtain ⟨jwtAudience, h⟩ := field_inj h
  obtain ⟨databaseUrl, h⟩ := field_inj h
  have bootstrapAdmin := shown_append_inj (List.append_cancel_left h)
  clear h
  have env := env_text_injective env
  cases s
  cases t
  simp_all

theorem display_eq_iff_secret :
    s.display = t.display ↔ s = { t with jwtSecret := s.jwtSecret } := by
  refine ⟨eq_of_display_eq, fun h => ?_⟩
  rw [h]
  rfl

/-- The printed form hides the secret of the tokens and nothing else: settings are printed alike
exactly if they differ in nothing but this secret. So of two database URLs that are written with
different passwords, each is told from the other. -/
theorem display_eq_iff (s : Settings) (secret secret' before password password' after : String) :
    let url (password : String) := before ++ ":" ++ password ++ "@" ++ after
    ({ s with jwtSecret := secret, databaseUrl := url password }.display =
        { s with jwtSecret := secret', databaseUrl := url password' }.display ↔
      password = password') ∧
    ∀ t : Settings, s.display = t.display ↔ s = { t with jwtSecret := s.jwtSecret } := by
  intro url
  refine ⟨?_, fun t => display_eq_iff_secret⟩
  rw [display_eq_iff_secret]
  simp [url]

/-- Two URLs differ in nothing but the password. -/
theorem display_shows_password :
    ({ databaseUrl := "postgresql+asyncpg://app:s3cret@db/authz" } : Settings).display ≠
      ({ databaseUrl := "postgresql+asyncpg://app:***@db/authz" } : Settings).display := by
  intro h
  have same := congrArg databaseUrl (eq_of_display_eq h)
  exact absurd same (by decide)

end TeamAccess.Settings
