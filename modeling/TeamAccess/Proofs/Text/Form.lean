import Mathlib.Data.List.Basic
import TeamAccess.Proofs.Text.Percent
import TeamAccess.Proofs.Text.Split
import TeamAccess.Text.Form

/-! # Reading back form-encoded pairs

Names and values are written without the signs that join them, so that the pairs of a query are read
back one by one. A pair without a value is not read, and no value that is read is empty.
-/

namespace TeamAccess.Text.Form

variable {c : Char} {query : List Char}

/-- A pair as it is written. -/
def written (pair : String × String) : String := encode pair.1 ++ "=" ++ encode pair.2

section Encode

theorem toList_encode (s : String) : (encode s).toList =
    (Percent.encode [' '] s.toList).map fun c => if c = ' ' then '+' else c := by
  simp [encode]

/-- What is no unreserved character does not occur in an encoded text, the signs of blanks and bytes
apart. -/
theorem not_mem_encode (hu : Percent.isUnreserved c = false) (hb : c ≠ '+') (hp : c ≠ '%')
    (s : String) : c ∉ (encode s).toList := by
  rw [toList_encode, List.mem_map]
  rintro ⟨d, hd, he⟩
  split at he
  · exact hb he.symm
  · rename_i hs
    subst he
    exact Percent.not_mem_encode hu (by simpa using hs) hp s.toList hd

/-- A text is read back from its encoded form. -/
theorem decode_encode (s : String) : decode (encode s).toList = s := by
  have plus : '+' ∉ Percent.encode [' '] s.toList :=
    Percent.not_mem_encode (by decide) (by decide) (by decide) _
  have back : ((encode s).toList.map fun c => if c = '+' then ' ' else c) =
      Percent.encode [' '] s.toList := by
    rw [toList_encode, List.map_map, List.map_congr_left (g := id), List.map_id]
    intro d hd
    have hne : d ≠ '+' := fun h => plus (h ▸ hd)
    by_cases hs : d = ' '
    · simp [hs]
    · simp [hs, hne]
  rw [decode, back, Percent.decode_encode (by decide), String.ofList_toList]

theorem encode_ne_nil {s : String} (h : s ≠ "") : (encode s).toList ≠ [] := by
  intro he
  have back := decode_encode s
  rw [he] at back
  exact h back.symm

end Encode

section Pairs

theorem intercalate_cons (sep : Char) (part : List Char) (parts : List (List Char)) :
    [sep].intercalate (part :: parts) = part ++ joined sep parts := by
  induction parts generalizing part with
  | nil => simp [joined]
  | cons next parts ih =>
    rw [List.intercalate_cons_cons, ih]
    simp [joined]

theorem splitFirst?_written (pair : String × String) :
    splitFirst? '=' (written pair).toList =
      some ((encode pair.1).toList, (encode pair.2).toList) := by
  refine splitFirst?_eq_some_iff.mpr ⟨?_, not_mem_encode (by decide) (by decide) (by decide) _⟩
  simp [written]

theorem amp_not_mem_written (pair : String × String) : '&' ∉ (written pair).toList := by
  have plain := not_mem_encode (c := '&') (by decide) (by decide) (by decide)
  simp [written, plain]

/-- A query holds only what encoded texts do, and the signs that join them. -/
theorem not_mem_written (hu : Percent.isUnreserved c = false) (hb : c ≠ '+') (hp : c ≠ '%')
    (he : c ≠ '=') (ha : c ≠ '&') (pairs : List (String × String)) :
    c ∉ ("&".intercalate (pairs.map written)).toList := by
  have each (p : String × String) : c ∉ (written p).toList := by
    simp [written, not_mem_encode hu hb hp, he]
  rw [String.toList_intercalate, List.map_map]
  cases pairs with
  | nil => simp
  | cons p pairs =>
    change c ∉ ['&'].intercalate ((written p).toList :: pairs.map fun p => (written p).toList)
    simp [intercalate_cons, joined, each, ha]

theorem splitAll_written (p : String × String) (pairs : List (String × String)) :
    splitAll '&' ("&".intercalate ((p :: pairs).map written)).toList =
      (p :: pairs).map fun p => (written p).toList := by
  have free : ∀ part ∈ pairs.map fun p => (written p).toList, '&' ∉ part :=
    List.forall_mem_map.mpr fun p _ => amp_not_mem_written p
  rw [String.toList_intercalate, List.map_map]
  change splitAll '&' (['&'].intercalate ((written p).toList :: pairs.map fun p =>
    (written p).toList)) = _
  rw [intercalate_cons, splitAll_append_joined, splitAll_of_not_mem (amp_not_mem_written p),
    flatMap_splitAll free]
  rfl

/-- Pairs with values are read back in their order. -/
theorem filledPairs_written {pairs : List (String × String)} (h : ∀ p ∈ pairs, p.2 ≠ "") :
    filledPairs ("&".intercalate (pairs.map written)).toList = pairs := by
  cases pairs with
  | nil => rfl
  | cons p pairs =>
    rw [filledPairs, splitAll_written, List.filterMap_map, List.filterMap_congr (g := some),
      List.filterMap_some]
    intro q hq
    have filled : (encode q.2).toList.isEmpty = false := by simpa using encode_ne_nil (h q hq)
    simp only [Function.comp_apply, splitFirst?_written, filled, decode_encode]
    rfl

/-- No value that is read is empty. -/
theorem value_ne_of_mem_filledPairs {p : String × String} (h : p ∈ filledPairs query) :
    p.2 ≠ "" := by
  obtain ⟨part, -, he⟩ := List.mem_filterMap.mp h
  split at he
  · rename_i name value _
    split at he
    · cases he
    · rename_i hv
      cases he
      have filled : (value.map fun c => if c = '+' then ' ' else c) ≠ [] := by simpa using hv
      intro hempty
      exact Percent.decode_ne_nil filled (String.ofList_eq_empty_iff.mp hempty)
  · cases he

end Pairs

end TeamAccess.Text.Form
