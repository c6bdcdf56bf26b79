import TeamAccess.Migration.Target
import TeamAccess.Proofs.DatabaseUrl.RoundTrip

/-! # The URL of a migration

A migration connects to the database that its URL names, with another driver. The text that it
connects to is read as the same URL, and a migration that starts from that text connects to it.
Hosts that look bracketed are the exception.
-/

namespace TeamAccess.Migration

open DatabaseUrl

variable {raw : String} {url : DatabaseUrl}

theorem syncDriver_syncDriver (driver : String) :
    syncDriver (syncDriver driver) = syncDriver driver := by
  fun_cases syncDriver driver with
  | case1 => rfl
  | case2 => rfl
  | case3 => exact syncDriver.eq_3 _ ‹_› ‹_›

/-- The URL with the driver of a migration. -/
def connection (url : DatabaseUrl) : DatabaseUrl := { url with driver := syncDriver url.driver }

theorem connectUrl_of_parse (h : DatabaseUrl.parse raw = .ok url) :
    connectUrl raw = .ok (connection url).render := by
  rw [connectUrl, h]
  rfl

theorem spelled_connection (h : Spelled url) : Spelled (connection url) where
  driver := by
    change syncDriver url.driver ≠ "" ∧ ∀ c ∈ (syncDriver url.driver).toList, isDriver c = true
    unfold syncDriver
    split
    · exact ⟨by decide, List.all_eq_true.mp (by decide +kernel)⟩
    · exact ⟨by decide, List.all_eq_true.mp (by decide +kernel)⟩
    · exact h.driver
  password := h.password
  host := h.host
  signs := h.signs
  port := h.port
  options := h.options

/-- A URL that has the driver of a migration is written with that driver. -/
theorem connectUrl_render {back : DatabaseUrl} (h : DatabaseUrl.parse raw = .ok back)
    (hd : back.driver = syncDriver url.driver) : connectUrl raw = .ok back.render := by
  have same : connection back = back := by
    rw [connection, hd, syncDriver_syncDriver, ← hd]
  rw [connectUrl_of_parse h, same]

/-- A migration connects to the URL that it starts from: driver and credentials are read back from
the text, and so are the parts behind the host, unless the host looks bracketed and goes on behind
its last bracket. The host is read back, and the text does not change when it is taken for the URL,
exactly if the host does not look bracketed. -/
theorem connectUrl_keeps_iff (h : DatabaseUrl.parse raw = .ok url) :
    ∃ text back, connectUrl raw = .ok text ∧ DatabaseUrl.parse text = .ok back ∧
      back.driver = syncDriver url.driver ∧ back.username = url.username ∧
      back.password = url.password ∧
      ((∀ host ∈ url.host, LooksBracketed host → host.toList.getLast? = some ']') →
        back.port = url.port ∧ back.database = url.database ∧ back.options.Perm url.options) ∧
      (back.host = url.host ↔ ∀ host ∈ url.host, ¬ LooksBracketed host) ∧
      (connectUrl text = .ok text ↔ ∀ host ∈ url.host, ¬ LooksBracketed host) := by
  have spelled := spelled_connection (spelled_of_parse h)
  by_cases hl : ∀ host ∈ url.host, ¬ LooksBracketed host
  · have back := parse_render spelled hl
    have again := connectUrl_render back rfl
    rw [render_sortedBy spelled.options] at again
    exact ⟨_, _, connectUrl_of_parse h, back, rfl, rfl, rfl,
      fun _ => ⟨rfl, rfl, sortedBy_perm _ _⟩, iff_of_true rfl hl, iff_of_true again hl⟩
  · -- another host is read, and its text is too short to be the same
    simp only [not_forall, not_not] at hl
    obtain ⟨host, hu, hc, he⟩ := hl
    have looks : ¬ ∀ host ∈ url.host, ¬ LooksBracketed host := fun hn => hn host hu ⟨hc, he⟩
    obtain ⟨inner, after, he, hi, ha⟩ := he.last
    have back := parse_render_of_looksBracketed spelled hu hc he hi ha
    have again := connectUrl_render back (rebracketed_driver inner after)
    have short := length_render_rebracketed spelled.options hu hc he
    refine ⟨_, _, connectUrl_of_parse h, back, rebracketed_driver inner after,
      rebracketed_username inner after, rebracketed_password inner after, ?_, iff_of_false ?_ looks,
      iff_of_false ?_ looks⟩
    · intro closed
      have last := closed host hu ⟨hc, inner, after, he, hi⟩
      rw [rebracketed, if_pos (eq_nil_of_getLast? ha (he ▸ last))]
      exact ⟨rfl, rfl, sortedBy_perm _ _⟩
    · exact rebracketed_host_ne hu he
    · rw [again]
      intro same
      rw [Except.ok.inj same] at short
      exact absurd short (Nat.lt_irrefl _)

/-- Credentials that hold the signs of a URL, a host with colons and options in any order, some of
them repeated or without a value. -/
def signs : String :=
  "postgresql+asyncpg://u%40s:p%2F:%25@[::1]:05432/a%3Fb/c+d?z=1&a=x%26y&b=&z=+2"

/-- The text of such a URL is read back as the same URL, with the driver of a migration. -/
theorem connectUrl_keeps_iff_signs :
    ∃ text, connectUrl signs = .ok text ∧ connectUrl text = .ok text ∧
      ∃ back, DatabaseUrl.parse text = .ok back ∧ back.driver = "postgresql" ∧
        back.username = some "u@s" ∧ back.password = some "p/:%" ∧ back.host = some "::1" ∧
        back.port = some 5432 ∧ back.database = some "a?b/c+d" ∧
        back.options.Perm [("z", ["1", " 2"]), ("a", ["x&y"])] := by
  have read : DatabaseUrl.parse signs = .ok ⟨"postgresql+asyncpg", some "u@s", some "p/:%",
      some "::1", some 5432, some "a?b/c+d", [("z", ["1", " 2"]), ("a", ["x&y"])]⟩ := by
    decide +kernel
  obtain ⟨text, back, connects, reads, driver, name, password, parts, host, again⟩ :=
    connectUrl_keeps_iff read
  have plain : ∀ host ∈ some "::1", ¬ LooksBracketed host := by
    rintro _ ⟨⟩ ⟨colon, -⟩
    exact colon (by decide)
  obtain ⟨port, database, options⟩ := parts fun host hu looks => absurd looks (plain host hu)
  exact ⟨text, connects, again.mpr plain, back, reads, driver, name, password, host.mpr plain, port,
    database, options⟩

/-- A URL with a host and a database and nothing else. -/
def hosted (host : String) : DatabaseUrl := ⟨"sqlite", none, none, some host, none, some "x", []⟩

theorem render_hosted {host : String} (h : ':' ∉ host.toList) :
    (connection (hosted host)).render = "sqlite://" ++ host ++ "/x" := by
  have database : Text.Percent.encodeString " +/" "x" = "x" := by decide +kernel
  simp [hosted, connection, syncDriver, render, renderCredentials, renderHost_of_not_mem h,
    database, String.append_assoc]

/-- A host in brackets loses them: what is read back is another host, and the text changes again. -/
theorem connectUrl_loses_brackets :
    ∃ url back, DatabaseUrl.parse "sqlite://[[a]]/x" = .ok url ∧
      connectUrl "sqlite://[[a]]/x" = .ok "sqlite://[a]/x" ∧
      DatabaseUrl.parse "sqlite://[a]/x" = .ok back ∧ back.host ≠ url.host ∧
      connectUrl "sqlite://[a]/x" ≠ .ok "sqlite://[a]/x" := by
  have outer : DatabaseUrl.parse "sqlite://[[a]]/x" = .ok (hosted "[a]") := by decide +kernel
  have inner : DatabaseUrl.parse "sqlite://[a]/x" = .ok (hosted "a") := by decide +kernel
  refine ⟨_, _, outer, ?_, inner, by decide, ?_⟩
  · rw [connectUrl_of_parse outer, render_hosted (by decide)]
    rfl
  · rw [connectUrl_of_parse inner, render_hosted (by decide)]
    decide

end TeamAccess.Migration
