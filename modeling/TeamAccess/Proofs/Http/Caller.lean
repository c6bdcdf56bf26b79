import TeamAccess.Http.Gate
import TeamAccess.Proofs.Credential

/-! # Whom a request comes from

Before the store is asked, credentials come to a caller or to a refusal with 401; with a usable key
there is no third outcome. An API key that is not empty decides alone, and every other caller is
the subject of a token that was accepted.
-/

namespace TeamAccess.Http.Gate

variable {cfg : Token.Config} {now : Int} {token apiKey : Option String} {ref : CallerRef}
  {settings : Settings} {request : Request} {s : Session} {f : Failure}

/-- The caller that an API key or a bearer token names, or the failure that the request ends
with. -/
def identify (cfg : Token.Config) (now : Int) (token apiKey : Option String) :
    Except Failure CallerRef :=
  match CallerRef.ofCredentials cfg now token apiKey with
  | .ok ref => .ok ref
  | .error (.key fault) => .error (.key fault)
  | .error e => .error (.refused 401 e.message)

/-- Whom the gate takes a request to come from. -/
def origin (settings : Settings) (request : Request) : Except Failure CallerRef :=
  identify settings.tokenConfig request.now request.bearer? request.apiKey?

theorem caller_eq (settings : Settings) (request : Request) :
    caller settings request = match origin settings request with
      | .ok ref => pure ref
      | .error f => throw f := by
  unfold caller origin identify
  dsimp only
  split <;> simp_all

theorem caller_of_origin_error (h : origin settings request = .error f) (s : Session) :
    caller settings request s = .error f s := by
  rw [caller_eq, h]
  rfl

theorem identify_eq_ok_iff :
    identify cfg now token apiKey = .ok ref ↔ ref.NamedBy cfg now token apiKey := by
  rw [← CallerRef.ofCredentials_eq_ok_iff]
  unfold identify
  split <;> simp_all

theorem identify_apiKey {key : String} (hn : key ≠ "") (token : Option String) :
    identify cfg now token (some key) = .ok ⟨.apiKey, key⟩ :=
  identify_eq_ok_iff.mpr (.apiKey rfl hn)

/-- With a usable key, whatever does not name a caller is refused. -/
theorem identify_refuses (h : cfg.Usable) (hi : identify cfg now token apiKey = .error f) :
    ∃ detail, f = .refused 401 detail := by
  unfold identify at hi
  split at hi
  · cases hi
  · rename_i hk
    exact absurd hk (CallerRef.ofCredentials_ne_key h _)
  · cases hi
    exact ⟨_, rfl⟩

/-- Credentials are resolved to a caller or refused with 401. The caller is an API key exactly if
one is given, whatever the token; every other caller is the subject of an accepted token. -/
theorem identify_resolves_or_refuses (h : cfg.Usable) (now : Int) (token apiKey : Option String) :
    ((∃ ref, identify cfg now token apiKey = .ok ref) ∨
      ∃ detail, identify cfg now token apiKey = .error (.refused 401 detail)) ∧
    (∀ ref, identify cfg now token apiKey = .ok ref →
      (ref.kind = .apiKey ↔ ∃ key, apiKey = some key ∧ key ≠ "") ∧
      (ref.kind ≠ .apiKey → ref.identifier ≠ "" ∧ ∃ kind text claims, ref.kind = .user kind ∧
        token = some text ∧ Token.verify cfg now text = .ok claims ∧
        Json.member? "sub" claims = some (.str ref.identifier))) ∧
    (∀ key, apiKey = some key → key ≠ "" →
      ∀ other, identify cfg now other apiKey = .ok ⟨.apiKey, key⟩) := by
  refine ⟨?_, fun ref hi => ?_, ?_⟩
  · cases hi : identify cfg now token apiKey with
    | ok ref => exact .inl ⟨ref, rfl⟩
    | error f =>
      obtain ⟨detail, rfl⟩ := identify_refuses h hi
      exact .inr ⟨detail, rfl⟩
  · cases identify_eq_ok_iff.mp hi with
    | apiKey hk hn => exact ⟨⟨fun _ => ⟨_, hk, hn⟩, fun _ => rfl⟩, fun hr => absurd rfl hr⟩
    | token hk ht hv hs hn hc =>
      have absent : ¬ ∃ key, apiKey = some key ∧ key ≠ "" := by
        rintro ⟨key, rfl, hn⟩
        simp [hn] at hk
      exact ⟨⟨nofun, fun he => absurd he absent⟩, fun _ => ⟨hn, _, _, _, rfl, ht, hv, hs⟩⟩
  · rintro key rfl hn other
    exact identify_apiKey hn other

/-- An API key names itself beside a text that is no token, and without one the text is refused. -/
theorem identify_resolves_or_refuses_text :
    let cfg := Settings.tokenConfig {}
    identify cfg 0 (some "ann") (some "k-1") = .ok ⟨.apiKey, "k-1"⟩ ∧
      ∃ detail, identify cfg 0 (some "ann") none = .error (.refused 401 detail) := by
  obtain ⟨-, -, names⟩ :=
    identify_resolves_or_refuses Token.usable_default 0 (some "ann") (some "k-1")
  refine ⟨names "k-1" rfl (by decide) (some "ann"), ?_⟩
  have nobody :
      (identify (Settings.tokenConfig {}) 0 (some "ann") none).toOption = none := by decide +kernel
  obtain ⟨⟨ref, h⟩ | refused, -⟩ :=
    identify_resolves_or_refuses Token.usable_default 0 (some "ann") none
  · simp [h, Except.toOption] at nobody
  · exact refused

end TeamAccess.Http.Gate
