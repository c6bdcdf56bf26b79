import TeamAccess.Proofs.Registry.Keeps
import TeamAccess.Script.Run

/-! # What references name

The lookups of a step only read. The rows determine what is handed in for each reference, or that
the lookup fails.
-/

namespace TeamAccess

open TeamAccess.Action

variable {st : Store}

namespace Store

/-- What is handed in for a reference to a principal; none if it cannot be looked up. -/
def principalOf? (s : Store) : PrincipalRef → Option (Option PrincipalHandle)
  | .nobody => some none
  | .stored kind name =>
    (PrincipalKind.ofText? kind).bind fun k => (s.resolve? k name).map fun r => some r.handle
  | .ghost kind name id =>
    (PrincipalKind.ofText? kind).map fun k => some ⟨k, id.map (⟨·⟩), name, false⟩
  | .copyOf kind name stored =>
    (PrincipalKind.ofText? kind).bind fun k =>
      (s.resolve? k stored).map fun r => some ⟨k, r.handle.id, name, false⟩

/-- What is handed in for a reference to a team; none if it cannot be looked up. -/
def teamOf? (s : Store) : TeamRef → Option TeamHandle
  | .stored name => (s.team? name).map (·.handle)
  | .ghost name id => some ⟨id.map (⟨·⟩), name, false⟩
  | .copyOf name stored => (s.team? stored).map fun t => ⟨some t.id, name, false⟩

theorem known_of_teamOf? {ref : TeamRef} {handle : TeamHandle} (h : st.teamOf? ref = some handle) :
    handle.Known st := by
  intro ht id hid
  cases ref with
  | stored name =>
    obtain ⟨t, hf, rfl⟩ := Option.map_eq_some_iff.mp h
    obtain rfl : t.id = id := by simpa [Team.handle] using hid
    exact ⟨t, List.mem_of_find?_eq_some hf, rfl⟩
  | ghost name id =>
    obtain rfl := Option.some.inj h
    simp at ht
  | copyOf name stored =>
    obtain ⟨t, -, rfl⟩ := Option.map_eq_some_iff.mp h
    simp at ht

theorem known_of_principalOf? {ref : PrincipalRef} {handle : PrincipalHandle}
    (h : st.principalOf? ref = some (some handle)) : handle.Known st := by
  cases ref with
  | nobody => cases h
  | stored kind name =>
    obtain ⟨k, -, hr⟩ := Option.bind_eq_some_iff.mp h
    obtain ⟨r, hr, he⟩ := Option.map_eq_some_iff.mp hr
    exact Option.some.inj he ▸ known_of_resolve? hr
  | ghost kind name id =>
    obtain ⟨k, -, he⟩ := Option.map_eq_some_iff.mp h
    obtain rfl := Option.some.inj he
    intro ht
    cases ht
  | copyOf kind name stored =>
    obtain ⟨k, -, hr⟩ := Option.bind_eq_some_iff.mp h
    obtain ⟨r, -, he⟩ := Option.map_eq_some_iff.mp hr
    obtain rfl := Option.some.inj he
    intro ht
    cases ht

end Store

namespace Script

theorem kindOf_finds (text : String) : Finds st (kindOf text) (PrincipalKind.ofText? text) := by
  unfold kindOf
  cases PrincipalKind.ofText? text with
  | none => exact ⟨_, .throw _⟩
  | some k => exact .pure k

theorem found_finds {α : Type} (what : Named) (o : Option α) : Finds st (found what o) o := by
  cases o with
  | none => exact ⟨_, .throw _⟩
  | some a => exact .pure a

theorem storedPrincipal_finds (kind : PrincipalKind) (name : String) :
    Finds st (storedPrincipal kind name) ((st.resolve? kind name).map (·.handle)) :=
  (Finds.reads (Principals.resolve?_reads kind name)).bind fun o _ =>
    (found_finds _ o).map fun (r : PrincipalRecord) => r.handle

theorem principal?_finds (ref : PrincipalRef) :
    Finds st (principal? ref) (st.principalOf? ref) := by
  cases ref with
  | nobody => exact .pure none
  | stored kind name =>
    refine ((kindOf_finds kind).bind fun k _ => (storedPrincipal_finds k name).map some).cast ?_
    simp [Store.principalOf?, Function.comp_def]
  | ghost kind name id => exact ((kindOf_finds kind).map _).cast rfl
  | copyOf kind name stored =>
    refine ((kindOf_finds kind).bind fun k _ =>
      (storedPrincipal_finds k stored).map fun (p : PrincipalHandle) =>
        some (⟨k, p.id, name, false⟩ : PrincipalHandle)).cast ?_
    simp [Store.principalOf?, Function.comp_def]

theorem subject_finds (asked : String) (p : Option PrincipalHandle) :
    Finds st (subject asked p) p := by
  cases p with
  | none => exact ⟨_, .throw _⟩
  | some p => exact .pure p

theorem principal_finds (ref : PrincipalRef) :
    Finds st (principal ref) ((st.principalOf? ref).bind id) :=
  (principal?_finds ref).bind fun p _ => subject_finds _ p

theorem storedTeam_finds (name : String) : Finds st (storedTeam name) (st.team? name) := by
  refine ((Finds.reads (Teams.find?_reads name)).bind fun o _ =>
    (found_finds _ o).map fun (r : TeamRecord) => r.team).cast ?_
  simp [Function.comp_def, Store.teamRecord]

theorem team_finds (ref : TeamRef) : Finds st (team ref) (st.teamOf? ref) := by
  cases ref with
  | stored name => exact (storedTeam_finds name).map _
  | ghost name id => exact .pure _
  | copyOf name stored =>
    exact (storedTeam_finds stored).map fun (t : Team) => (⟨some t.id, name, false⟩ : TeamHandle)

theorem permission_finds (name : String) : Finds st (permission name) (st.permission? name) :=
  (Finds.reads (Permissions.find?_reads name)).bind fun _ _ => found_finds _ _

theorem oidcGroup_finds (name : String) : Finds st (oidcGroup name) (st.oidcGroup? name) :=
  (Finds.reads (Groups.find?_reads name)).bind fun _ _ => found_finds _ _

end Script

end TeamAccess
