import TeamAccess.Proofs.Authorization.Listing
import TeamAccess.Proofs.Http.Administration
import TeamAccess.Proofs.Registry.Writes

/-! # Giving an API key another text

An API key that gets another text stays who it is: only its row changes, so its teams and what they
are granted are as before. The new text finds it from then on, and the old one finds nobody, so that
requests with the old text are refused. A text that another key has is a duplicate.
-/

namespace TeamAccess

open TeamAccess.Action

namespace Store

variable {s : Store} {id : Uuid} {key : String} {k : ApiKey}

/-- The store once the API key of an identifier has another text. -/
def renewed (s : Store) (id : Uuid) (key : String) : Store :=
  { s with apiKeys := s.apiKeys.map fun k => if k.id = id then ⟨id, key⟩ else k }

theorem replaceApiKey_of_free (h : ∀ other ∈ s.apiKeys, other.key = key → other.id = id) :
    s.replaceApiKey id key = .ok ((), s.renewed id key) := by
  refine if_neg ?_
  simpa using h

theorem replaceApiKey_of_taken (h : ∃ other ∈ s.apiKeys, other.key = key ∧ other.id ≠ id) :
    s.replaceApiKey id key = .error (.duplicate .apiKeyText) := by
  refine if_pos ?_
  simpa using h

theorem mem_renewed (hk : k ∈ s.apiKeys) {k' : ApiKey} :
    k' ∈ (s.renewed k.id key).apiKeys ↔ k' = ⟨k.id, key⟩ ∨ k' ∈ s.apiKeys ∧ k'.id ≠ k.id := by
  simp only [renewed, List.mem_map]
  constructor
  · rintro ⟨other, ho, rfl⟩
    by_cases hi : other.id = k.id
    · exact .inl (if_pos hi)
    · rw [if_neg hi]
      exact .inr ⟨ho, hi⟩
  · rintro (rfl | ⟨hm, hi⟩)
    · exact ⟨k, hk, if_pos rfl⟩
    · exact ⟨k', hm, if_neg hi⟩

/-- An API key is found by its identifier, whatever text is handed in with it. -/
theorem Distinct.record?_of_apiKey (hd : s.Distinct) (hk : k ∈ s.apiKeys) {p : PrincipalHandle}
    (hp : p.kind = .apiKey) (hi : p.id = some k.id) :
    s.record? p = some (.apiKey (s.keyRecord k)) := by
  have found : s.apiKeyById? k.id = some k := hd.apiKeyById?_eq_some_iff.mpr ⟨hk, rfl⟩
  rw [record?, hi, hp]
  exact congrArg (Option.map _) found

theorem Distinct.renewed (hd : s.Distinct)
    (free : ∀ other ∈ s.apiKeys, other.key = key → other.id = id) : (s.renewed id key).Distinct :=
  hd.replaceApiKey (replaceApiKey_of_free free)

section Free

variable (hd : s.Distinct) (hk : k ∈ s.apiKeys)
  (free : ∀ other ∈ s.apiKeys, other.key = key → other.id = k.id)

include hd hk free

/-- The new text finds the key. -/
theorem renewed_apiKey? : (s.renewed k.id key).apiKey? key = some ⟨k.id, key⟩ :=
  (hd.renewed free).apiKey?_eq_some_iff.mpr ⟨(mem_renewed hk).mpr (.inl rfl), rfl⟩

omit free in
/-- The old text finds nobody. -/
theorem renewed_apiKey?_old (hne : k.key ≠ key) : (s.renewed k.id key).apiKey? k.key = none := by
  refine List.find?_eq_none.mpr fun k' hm => ?_
  rw [decide_eq_true_eq]
  rcases (mem_renewed hk).mp hm with rfl | ⟨hm, hi⟩
  · exact hne.symm
  · exact fun he => hi (congrArg ApiKey.id (List.inj_on_of_nodup_map hd.keyTexts hm hk he))

end Free

end Store

/-- The effective permissions of an API key are those of its teams. -/
theorem Evaluation.effective_apiKey_writes {s : Store} {k : ApiKey} (hm : s.missing = [])
    (hd : s.Distinct) (hk : k ∈ s.apiKeys) :
    Writes s (effective k.handle)
      (firstsByName ((s.teamsOf .apiKey k.id).flatMap (s.teamPermissions ·.id))) s := by
  rintro σ ho rfl
  exact effective_ok ⟨ho, hm⟩ (hd.record?_of_apiKey hk rfl rfl)

namespace Principals

variable {s : Store} {p : PrincipalHandle} {k : ApiKey} {key : String}

section

variable (hm : s.missing = [])

include hm

theorem regenerateApiKey_writes (hr : s.record? p = some (.apiKey (s.keyRecord k)))
    (free : ∀ other ∈ s.apiKeys, other.key = key → other.id = k.id) :
    Writes s (regenerateApiKey p key) ⟨⟨k.id, key⟩, s.teamsOf .apiKey k.id⟩
      (s.renewed k.id key) :=
  (Writes.attempt _).bind ((Writes.reads hm (lock_reads hr)).bind
    ((Writes.change hm (Store.replaceApiKey_of_free free)).bind (.pure _)))

theorem regenerateApiKey_rejects_taken (hr : s.record? p = some (.apiKey (s.keyRecord k)))
    (taken : ∃ other ∈ s.apiKeys, other.key = key ∧ other.id ≠ k.id) :
    Rejects s (regenerateApiKey p key) (.store (.duplicate .apiKeyText)) :=
  .after hm (.attempt _) (.after hm (lock_reads hr)
    (.bind (.change hm (Store.replaceApiKey_of_taken taken))))

theorem regenerateApiKey_rejects_unknown (hr : s.record? p = none) :
    Rejects s (regenerateApiKey p key) p.notFound :=
  .after hm (.attempt _) (.bind (.reads hm (lock_reads_none hr)))

end

end Principals

namespace Http

variable {server : Server} {request : Request} {endpoint : Endpoint} {parameters : Parameters}
  {payload : Payload} {key : String}

/-- Who gives no credentials but an empty text is refused before the store is asked. -/
theorem Gate.caller_of_empty (settings : Settings) (hx : request.apiKey? = some "")
    (hb : request.bearer? = none) (s : Session) :
    caller settings request s = .error (.refused 401 CredentialError.missing.message) s := by
  unfold caller
  rw [hx, hb]
  rfl

/-- With a text that no key has, nobody gets past a gate. -/
theorem Gate.pass_refuses_unknown {s : Session} (settings : Settings) (hs : s.Calm)
    (hk : s.current.apiKey? key = none) (hx : request.apiKey? = some key)
    (hb : key = "" → request.bearer? = none) {access : Access} (ha : access ≠ .anyone) :
    ∃ status detail s', pass settings request access s = .error (.refused status detail) s' ∧
      Refuses status ∧ s'.durable = s.durable ∧ s'.keys = s.keys := by
  by_cases he : key = ""
  · subst he
    have hc := caller_of_empty settings hx (hb rfl) s
    refine ⟨401, CredentialError.missing.message, s, ?_, .inl rfl, rfl, rfl⟩
    cases access with
    | anyone => exact absurd rfl ha
    | principal => exact bind_error (bind_error hc)
    | administrator => exact bind_error (bind_error hc)
  · have names : Names settings request ⟨.apiKey, key⟩ := .apiKey hx he
    have hc := caller_of_names names s
    have nobody : principal? ⟨.apiKey, key⟩ s = .ok none s := by
      rw [principal?_calm hs]
      simp [Store.resolve?, hk]
    cases access with
    | anyone => exact absurd rfl ha
    | principal =>
      have hr : requirePrincipal settings request s = .error forbidden s := by
        rw [requirePrincipal, bind_ok hc, bind_ok nobody]
        rfl
      exact ⟨403, _, _, bind_error hr, .inr rfl, rfl, rfl⟩
    | administrator =>
      have hr : ∃ s', requireAdministrator settings request s = .error forbidden s' ∧
          s'.durable = s.durable ∧ s'.keys = s.keys := by
        rw [requireAdministrator, bind_ok hc, bind_ok nobody]
        exact ⟨_, bind_ok (Decision.authorize_none _ s), rfl, rfl⟩
      obtain ⟨s', hr, hd, hk⟩ := hr
      exact ⟨403, _, s', bind_error hr, .inr rfl, hd, hk⟩

/-- A request with a text that no key has is refused wherever a caller is asked for. -/
theorem Server.handle_unknown_key (hc : server.store.missing = [])
    (hk : server.store.apiKey? key = none)
    (ht : Route.target request.method request.path = .endpoint endpoint parameters)
    (ha : endpoint.access ≠ .anyone) (hp : request.Carries endpoint payload)
    (hx : request.apiKey? = some key) (hb : key = "" → request.bearer? = none) :
    Gate.Refuses (server.handle none request).1.response.status ∧
      (server.handle none request).2 = server := by
  have calm : server.session.Calm := ⟨rfl, hc⟩
  obtain ⟨status, detail, s, hr, hs, hd, hks⟩ :=
    Gate.pass_refuses_unknown server.settings calm hk hx hb ha
  have refused : serve server.settings request endpoint parameters server.session =
      .error (.refused status detail) s := by
    unfold serve
    rw [hp]
    exact bind_error hr
  rw [handle_of_error ht refused, hd, hks]
  exact ⟨hs, rfl⟩

end Http

namespace Principals

variable {s : Store}

/-- Giving an API key another text moves the credential and nothing else. Whoever is handed in is
found by its identifier. If no other key has the text, the row of the key changes and no other: the
new text finds the key with the same teams and the same effective permissions, and with the old text
nobody is found and every request is refused that asks for a caller. (An empty text counts as no
credential, so that a request with it may still carry a token.) A text of another key is a
duplicate, and a key that is not stored is missed; neither changes anything. -/
theorem renewal_moves_credential (h : Reachable s) (hc : s.isComplete = true)
    (p : PrincipalHandle) (hp : p.kind = .apiKey) (key : String) :
    (∀ k ∈ s.apiKeys, p.id = some k.id →
      ((∀ other ∈ s.apiKeys, other.key = key → other = k) →
        ∃ s' : Store, ∃ renewed : KeyRecord,
          s' = { s with
            apiKeys := s.apiKeys.map fun k' => if k'.id = k.id then ⟨k.id, key⟩ else k' } ∧
          renewed = ⟨⟨k.id, key⟩, s.teamsOf .apiKey k.id⟩ ∧
          Writes s (regenerateApiKey p key) renewed s' ∧
          Writes s' (findApiKey? key) (some renewed) s' ∧
          (∃ listing, Writes s (Evaluation.effective k.handle) listing s ∧
            Writes s' (Evaluation.effective renewed.apiKey.handle) listing s') ∧
          (k.key ≠ key → Writes s' (findApiKey? k.key) none s' ∧
            ∀ settings keys request endpoint parameters payload,
              Http.Route.target request.method request.path = .endpoint endpoint parameters →
              endpoint.access ≠ .anyone → request.Carries endpoint payload →
              request.apiKey? = some k.key → (k.key = "" → request.bearer? = none) →
              let server : Http.Server := ⟨settings, s', keys⟩
              Http.Gate.Refuses (server.handle none request).1.response.status ∧
                (server.handle none request).2 = server)) ∧
      ((∃ other ∈ s.apiKeys, other.key = key ∧ other ≠ k) →
        Rejects s (regenerateApiKey p key) (.store (.duplicate .apiKeyText)))) ∧
    ((∀ id, p.id = some id → ¬ s.HasPrincipal .apiKey id) →
      Rejects s (regenerateApiKey p key) p.notFound) := by
  have hd := h.distinct
  have hm := List.isEmpty_iff.mp hc
  refine ⟨fun k hk hi => ?_, fun unknown => ?_⟩
  · have same : ∀ other ∈ s.apiKeys, other.id = k.id → other = k := fun other ho =>
      List.inj_on_of_nodup_map hd.keyIds ho hk
    have hr : s.record? p = some (.apiKey (s.keyRecord k)) :=
      hd.record?_of_apiKey hk hp hi
    refine ⟨fun free => ?_, fun ⟨other, ho, hn, hne⟩ => ?_⟩
    · have free : ∀ other ∈ s.apiKeys, other.key = key → other.id = k.id :=
        fun other ho hn => congrArg ApiKey.id (free other ho hn)
      let renewed : KeyRecord := ⟨⟨k.id, key⟩, s.teamsOf .apiKey k.id⟩
      have found : Reads (s.renewed k.id key) (findApiKey? key)
          (.ok (some renewed)) :=
        .cast ⟨_, findApiKey?_traces key⟩ (by rw [Store.renewed_apiKey? hd hk free]; rfl)
      refine ⟨s.renewed k.id key, renewed, rfl, rfl, regenerateApiKey_writes hm hr free,
        .reads hm found, ?_, fun hne => ?_⟩
      · have stored : ⟨k.id, key⟩ ∈ (s.renewed k.id key).apiKeys :=
          (Store.mem_renewed hk).mpr (.inl rfl)
        exact ⟨_, Evaluation.effective_apiKey_writes hm hd hk,
          Evaluation.effective_apiKey_writes (s := s.renewed k.id key) hm (hd.renewed free) stored⟩
      · have gone := Store.renewed_apiKey?_old hd hk hne
        have missed : Reads (s.renewed k.id key) (findApiKey? k.key) (.ok none) :=
          .cast ⟨_, findApiKey?_traces k.key⟩ (by rw [gone]; rfl)
        refine ⟨.reads hm missed, ?_⟩
        intro settings keys request endpoint parameters payload ht ha hcarries hx hb
        exact Http.Server.handle_unknown_key hm gone ht ha hcarries hx hb
    · exact regenerateApiKey_rejects_taken hm hr ⟨other, ho, hn, fun hi => hne (same other ho hi)⟩
  · refine regenerateApiKey_rejects_unknown hm (Store.record?_eq_none fun id hi => ?_)
    rw [hp]
    exact unknown id hi

/-- A key that gets a text of its own may no longer list the teams with the old one; the text of
the other key is taken, and an identifier that no key has is missed. -/
theorem renewal_moves_credential_sample :
    let s := Sample.guestStore
    let p : PrincipalHandle := ⟨.apiKey, some Sample.key.id, "k-9", false⟩
    let unknown : PrincipalHandle := ⟨.apiKey, some (Sample.id 9), "k-1", false⟩
    let request : Http.Request :=
      ⟨"GET", "/v1/admin/teams", [("X-Api-Key", "k-1")], [], 0, "r"⟩
    (∃ s', Writes s (regenerateApiKey p "k-3") ⟨⟨Sample.key.id, "k-3"⟩, [Sample.admins]⟩ s' ∧
      Writes s' (findApiKey? "k-1") none s' ∧
      let server : Http.Server := ⟨{}, s', {}⟩
      Http.Gate.Refuses (server.handle none request).1.response.status) ∧
    Rejects s (regenerateApiKey p "k-2") (.store (.duplicate .apiKeyText)) ∧
    Rejects s (regenerateApiKey unknown "k-3") unknown.notFound := by
  intro s p unknown request
  have stored : Sample.key ∈ s.apiKeys := by decide
  have free : ∀ other ∈ s.apiKeys, other.key = "k-3" → other = Sample.key := by decide
  have others : ∀ k ∈ s.apiKeys, k.id ≠ Sample.id 9 := by decide
  have teams : s.teamsOf .apiKey Sample.key.id = [Sample.admins] := by decide +kernel
  have target : Http.Route.target request.method request.path = .endpoint .listTeams [] := by
    decide +kernel
  refine ⟨?_, ?_, ?_⟩
  · obtain ⟨s', _, -, rfl, written, -, -, gone⟩ :=
      ((renewal_moves_credential Sample.guestStore_reachable rfl p rfl "k-3").1 _ stored rfl).1 free
    obtain ⟨missed, refused⟩ := gone (by decide)
    exact ⟨s', teams ▸ written, missed, (refused {} {} request .listTeams [] .absent target
      (by decide) rfl (by decide +kernel) (by decide)).1⟩
  · exact ((renewal_moves_credential Sample.guestStore_reachable rfl p rfl "k-2").1 _ stored rfl).2
      ⟨Sample.guestKey, by decide, rfl, by decide⟩
  · refine (renewal_moves_credential Sample.guestStore_reachable rfl unknown rfl "k-3").2 ?_
    rintro _ ⟨⟩ ⟨k, hk, hi⟩
    exact others k hk hi

end Principals

end TeamAccess
