import TeamAccess.Proofs.Reachable

/-! # Integrity of the store

Foreign keys are not enforced, so that edges join what is stored rests on the operations alone:
they join what they have looked up, and nothing that can be joined is ever removed. Scripts may map
teams that are not stored; requests look the team up before they map it.
-/

namespace TeamAccess

/-- Servers that start and requests lead from the empty store to this one. -/
inductive Served : Store → Prop where
  | empty : Served .empty
  | start {s : Store} {server : Http.Server} (settings : Settings) (keys : KeySupply) :
      Served s → (Http.Server.start settings s keys).outcome = .ok server → Served server.store
  | request {server : Http.Server} (outage : Option Outage) (request : Http.Request) :
      Served server.store → Served (server.handle outage request).2.store

/-- What is closed and survives the creation of tables holds of every store that is served. -/
theorem Served.within {I : Store → Prop} {s : Store} (h : Served s)
    (hI : Store.Closed Store.HasTeam I) (he : I .empty) (hc : ∀ s, I s → I s.createTables) :
    I s := by
  induction h with
  | empty => exact he
  | start settings keys _ hs ih => exact Http.Server.start_keeps hI (hc _) settings keys ih _ hs
  | request outage request _ ih => exact Http.Server.handle_keeps hI _ outage request ih

theorem Served.distinct {s : Store} (h : Served s) : s.Distinct :=
  h.within Store.closed_distinct Store.distinct_empty fun _ => Store.Distinct.createTables

theorem Served.sound {s : Store} (h : Served s) : s.Sound :=
  h.within Store.closed_sound Store.sound_empty fun _ hs => { hs with }

theorem Served.anchored {s : Store} (h : Served s) : s.Anchored :=
  h.within Store.closed_anchored Store.anchored_empty fun _ hs => { hs with }

namespace Sample

/-- What a server that has started with an administrator holds. -/
def rootStore : Store where
  permissions := [⟨id 0, Bootstrap.accessManagement, some Bootstrap.description⟩]
  users := [⟨id 1, "root", .managed none none false⟩]
  userGrants := [⟨.managed, id 1, id 0⟩]

theorem rootStore_served : Served rootStore :=
  have started : (Http.Server.start { bootstrapAdmin := some "root" } .empty {}).outcome =
      .ok ⟨{ bootstrapAdmin := some "root" }, rootStore, {}⟩ := rfl
  .start _ _ .empty started

end Sample

/-- Scripts that remove no table, whatever fails in them and whatever is committed, leave distinct
rows and edges that join what is stored. If there are only servers and requests, mappings reach
stored teams as well. -/
theorem store_integrity :
    (∀ entries : List Entry, (∀ entry ∈ entries, entry.KeepsTables) →
      (Script.run entries .empty).2.Distinct ∧ (Script.run entries .empty).2.Sound) ∧
    ∀ s : Store, Served s → s.Distinct ∧ s.Sound ∧ s.Anchored := by
  refine ⟨fun entries hd => ⟨?_, ?_⟩, fun s hs => ⟨hs.distinct, hs.sound, hs.anchored⟩⟩
  · exact Script.run_keeps Store.closed_distinct hd Store.distinct_empty
  · exact Script.run_keeps Store.closed_sound hd Store.sound_empty

/-- The small store comes from a script, and a server that has started has an administrator. -/
theorem store_integrity_sample :
    ∃ server, (Http.Server.start { bootstrapAdmin := some "root" } .empty {}).outcome = .ok server ∧
      server.store.userGrants ≠ [] ∧ (Sample.store.Distinct ∧ Sample.store.Sound) ∧
      server.store.Distinct ∧ server.store.Sound ∧ server.store.Anchored := by
  have script : (Script.run [Sample.entry] .empty).2 = Sample.store := by decide +kernel
  have kept : ∀ entry ∈ [Sample.entry], entry.KeepsTables := by
    simp [Sample.entry, Entry.KeepsTables, Entry.steps]
  have started : ∃ server, (Http.Server.start { bootstrapAdmin := some "root" } .empty {}).outcome
      = .ok server ∧ server.store.userGrants ≠ [] := ⟨_, rfl, by decide +kernel⟩
  obtain ⟨server, hs, hg⟩ := started
  exact ⟨server, hs, hg, script ▸ store_integrity.1 _ kept,
    store_integrity.2 _ (.start _ _ .empty hs)⟩

end TeamAccess
