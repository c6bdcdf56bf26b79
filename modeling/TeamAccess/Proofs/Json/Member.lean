import TeamAccess.Proofs.Json.RoundTrip

/-! # Setting members of an object

A member that is set is found under its name, and the other members as before. What was readable
stays readable, since no name is set twice.
-/

namespace TeamAccess.Json

variable {name n : String} {value v : Json} {members base later : List (String × Json)}

theorem readable_obj_iff : Readable (.obj members) ↔
    (members.map (·.1)).Nodup ∧ ∀ m ∈ members, Readable m.2 := by
  constructor
  · rintro (_ | _ | _ | _ | _ | _ | _ | _ | ⟨hn, hr⟩)
    exact ⟨hn, hr⟩
  · rintro ⟨hn, hr⟩
    exact .obj hn hr

theorem member?_cons : member? name ((n, v) :: members) =
    if n = name then some v else member? name members := rfl

theorem member?_eq_none (h : name ∉ members.map (·.1)) : member? name members = none := by
  induction members with
  | nil => rfl
  | cons m members ih =>
    obtain ⟨hm, hr⟩ := not_or.mp (mt List.mem_cons.mpr h)
    rw [member?_cons, if_neg (Ne.symm hm), ih hr]

theorem not_mem_of_member?_eq_none (h : member? name members = none) :
    name ∉ members.map (·.1) := by
  induction members with
  | nil => simp
  | cons m members ih =>
    rw [member?_cons] at h
    split at h
    · cases h
    · rename_i hne
      exact mt List.mem_cons.mp (not_or.mpr ⟨Ne.symm hne, ih h⟩)

theorem member?_append (members later : List (String × Json)) :
    member? name (members ++ later) = (member? name members).or (member? name later) := by
  induction members with
  | nil => rfl
  | cons m members ih =>
    rw [List.cons_append, member?_cons, member?_cons, ih]
    split <;> rfl

theorem member?_setMember (n : String) (v : Json) (members : List (String × Json)) :
    member? name (setMember n v members) = if n = name then some v else member? name members := by
  induction members with
  | nil => rfl
  | cons m members ih =>
    by_cases hm : m.1 = n
    · rw [setMember, if_pos hm, member?_cons, member?_cons, hm]
      split <;> rfl
    · rw [setMember, if_neg hm, member?_cons, member?_cons, ih]
      by_cases hn : n = name
      · rw [if_pos hn, if_neg (hn ▸ hm), if_pos hn]
      · rw [if_neg hn, if_neg hn]

theorem mem_setMember {m : String × Json} (h : m ∈ setMember n v members) :
    m = (n, v) ∨ m ∈ members := by
  induction members with
  | nil => exact .inl (List.mem_singleton.mp h)
  | cons k members ih =>
    rw [setMember] at h
    split at h
    · rcases List.mem_cons.mp h with rfl | hm
      · exact .inl rfl
      · exact .inr (List.mem_cons_of_mem _ hm)
    · rcases List.mem_cons.mp h with rfl | hm
      · exact .inr List.mem_cons_self
      · exact (ih hm).imp_right (List.mem_cons_of_mem _)

theorem nodup_setMember (h : (members.map (·.1)).Nodup) :
    ((setMember n v members).map (·.1)).Nodup := by
  induction members with
  | nil => simp [setMember]
  | cons k members ih =>
    obtain ⟨hk, hm⟩ := List.nodup_cons.mp h
    rw [setMember]
    split
    · rename_i he
      exact List.nodup_cons.mpr ⟨he ▸ hk, hm⟩
    · rename_i hne
      refine List.nodup_cons.mpr ⟨fun hin => ?_, ih hm⟩
      obtain ⟨m, hs, he⟩ := List.mem_map.mp hin
      rcases mem_setMember hs with rfl | hs
      · exact hne he.symm
      · exact hk (he ▸ List.mem_map_of_mem hs)

theorem Readable.setMember (h : Readable (.obj members)) (hv : Readable v) :
    Readable (.obj (setMember n v members)) := by
  obtain ⟨hn, hr⟩ := readable_obj_iff.mp h
  refine .obj (nodup_setMember hn) fun m hm => ?_
  rcases mem_setMember hm with rfl | hm
  · exact hv
  · exact hr m hm

end TeamAccess.Json
