import Mathlib.Data.List.TakeWhile
import TeamAccess.Text.Split

/-! # Where a text is cut

A cut at the first or the last occurrence of a separator is the one cut at that separator whose
near part is free of it. A stretch of characters ends where the next part begins with a mark.
Cutting at every occurrence undoes joining parts that are free of it.
-/

namespace TeamAccess.Text

variable {sep c : Char} {text rest before after : List Char}

theorem splitFirst?_cons_self (sep : Char) (rest : List Char) :
    splitFirst? sep (sep :: rest) = some ([], rest) :=
  if_pos rfl

theorem splitFirst?_cons_of_ne (hc : c ≠ sep) (rest : List Char) :
    splitFirst? sep (c :: rest) =
      (splitFirst? sep rest).map fun (before, after) => (c :: before, after) :=
  if_neg hc

theorem splitFirst?_eq_some_iff :
    splitFirst? sep text = some (before, after) ↔
      text = before ++ sep :: after ∧ sep ∉ before := by
  induction text generalizing before with
  | nil => exact iff_of_false nofun (by simp)
  | cons c rest ih =>
    by_cases hc : c = sep
    · subst hc
      rw [splitFirst?_cons_self]
      cases before with
      | nil => simp
      | cons b bs =>
        simp only [List.cons_append, List.cons.injEq, List.mem_cons, not_or]
        exact iff_of_false (by simp) fun h => h.2.1 h.1.1
    · rw [splitFirst?_cons_of_ne hc]
      cases before with
      | nil => simp [hc]
      | cons b bs =>
        have hs : sep ≠ c := fun h => hc h.symm
        simp only [Option.map_eq_some_iff, Prod.exists, Prod.mk.injEq, List.cons.injEq,
          List.cons_append, List.mem_cons, not_or]
        constructor
        · rintro ⟨bs', after', h, ⟨rfl, rfl⟩, rfl⟩
          obtain ⟨rfl, hn⟩ := ih.mp h
          exact ⟨⟨rfl, rfl⟩, hs, hn⟩
        · rintro ⟨⟨rfl, rfl⟩, -, hn⟩
          exact ⟨bs, after, ih.mpr ⟨rfl, hn⟩, ⟨rfl, rfl⟩, rfl⟩

theorem splitLast?_eq_some_iff :
    splitLast? sep text = some (before, after) ↔
      text = before ++ sep :: after ∧ sep ∉ after := by
  simp only [splitLast?, Option.map_eq_some_iff, Prod.exists, Prod.mk.injEq]
  constructor
  · rintro ⟨front, back, h, rfl, rfl⟩
    obtain ⟨ht, hn⟩ := splitFirst?_eq_some_iff.mp h
    refine ⟨?_, by simpa using hn⟩
    rw [← text.reverse_reverse, ht]
    simp
  · rintro ⟨rfl, hn⟩
    exact ⟨after.reverse, before.reverse, splitFirst?_eq_some_iff.mpr ⟨by simp, by simpa using hn⟩,
      by simp, by simp⟩

theorem splitFirst?_eq_none_iff : splitFirst? sep text = none ↔ sep ∉ text := by
  induction text with
  | nil => exact iff_of_true rfl List.not_mem_nil
  | cons c rest ih =>
    by_cases hc : c = sep
    · rw [hc, splitFirst?_cons_self]
      exact iff_of_false nofun fun h => h List.mem_cons_self
    · rw [splitFirst?_cons_of_ne hc, Option.map_eq_none_iff, ih, List.mem_cons, not_or]
      exact (and_iff_right (Ne.symm hc)).symm

theorem splitLast?_eq_none_iff : splitLast? sep text = none ↔ sep ∉ text := by
  rw [splitLast?, Option.map_eq_none_iff, splitFirst?_eq_none_iff, List.mem_reverse]

section Stops

variable {marks : List Char} {p : Char → Bool}

/-- A text is empty or begins with one of some characters. -/
def Begins (marks text : List Char) : Prop := ∀ c ∈ text.head?, c ∈ marks

theorem Begins.nil (marks : List Char) : Begins marks [] := nofun

theorem Begins.cons {c : Char} (h : c ∈ marks) (text : List Char) :
    Begins marks (c :: text) := by
  rintro _ ⟨⟩
  exact h

theorem Begins.mono {more : List Char} (h : Begins marks text) (hm : marks ⊆ more) :
    Begins more text := fun c hc => hm (h c hc)

theorem takeWhile_stop (h : ∀ c ∈ text, p c = true) (hr : Begins marks rest)
    (hm : marks.any p = false) : (text ++ rest).takeWhile p = text := by
  rw [List.takeWhile_append_of_pos h]
  cases rest with
  | nil => simp
  | cons c rest => simp [List.any_eq_false.mp hm c (hr c rfl)]

theorem dropWhile_stop (h : ∀ c ∈ text, p c = true) (hr : Begins marks rest)
    (hm : marks.any p = false) : (text ++ rest).dropWhile p = rest := by
  rw [List.dropWhile_append_of_pos h]
  cases rest with
  | nil => rfl
  | cons c rest => simp [List.any_eq_false.mp hm c (hr c rfl)]

theorem all_ne_of_not_mem {c : Char} (h : c ∉ text) : ∀ d ∈ text, (d != c) = true := by
  intro d hd
  exact bne_iff_ne.mpr fun he => h (he ▸ hd)

end Stops

section All

variable {parts : List (List Char)}

theorem splitAll_cons_self (sep : Char) (rest : List Char) :
    splitAll sep (sep :: rest) = [] :: splitAll sep rest :=
  if_pos rfl

theorem splitAll_cons_of_ne {first : List Char} (hc : c ≠ sep)
    (h : splitAll sep rest = first :: parts) : splitAll sep (c :: rest) = (c :: first) :: parts :=
  (if_neg hc).trans (by rw [h])

theorem splitAll_ne_nil (sep : Char) (text : List Char) : splitAll sep text ≠ [] := by
  induction text with
  | nil => exact List.cons_ne_nil _ _
  | cons c rest ih =>
    by_cases hc : c = sep
    · rw [hc, splitAll_cons_self]
      exact List.cons_ne_nil _ _
    · obtain ⟨first, others, h⟩ := List.exists_cons_of_ne_nil ih
      rw [splitAll_cons_of_ne hc h]
      exact List.cons_ne_nil _ _

theorem splitAll_of_not_mem (h : sep ∉ text) : splitAll sep text = [text] := by
  induction text with
  | nil => rfl
  | cons c rest ih =>
    obtain ⟨hc, hr⟩ := not_or.mp (mt List.mem_cons.mpr h)
    exact splitAll_cons_of_ne (Ne.symm hc) (ih hr)

theorem splitAll_sep (before after : List Char) :
    splitAll sep (before ++ sep :: after) = splitAll sep before ++ splitAll sep after := by
  induction before with
  | nil => exact splitAll_cons_self sep after
  | cons c before ih =>
    by_cases hc : c = sep
    · rw [hc, List.cons_append, splitAll_cons_self, splitAll_cons_self, ih, List.cons_append]
    · obtain ⟨first, others, h⟩ := List.exists_cons_of_ne_nil (splitAll_ne_nil sep before)
      rw [splitAll_cons_of_ne hc h]
      exact splitAll_cons_of_ne hc (ih.trans (by rw [h]; rfl))

/-- Parts, each after a separator. -/
def joined (sep : Char) (parts : List (List Char)) : List Char := parts.flatMap (sep :: ·)

theorem splitAll_append_joined (text : List Char) (parts : List (List Char)) :
    splitAll sep (text ++ joined sep parts) =
      splitAll sep text ++ parts.flatMap (splitAll sep) := by
  induction parts generalizing text with
  | nil => simp [joined]
  | cons part parts ih =>
    have cut : text ++ joined sep (part :: parts) = text ++ sep :: (part ++ joined sep parts) := by
      simp [joined]
    rw [cut, splitAll_sep, ih, List.flatMap_cons]

theorem splitAll_joined (parts : List (List Char)) :
    splitAll sep (joined sep parts) = [] :: parts.flatMap (splitAll sep) :=
  splitAll_append_joined [] parts

theorem flatMap_splitAll (h : ∀ part ∈ parts, sep ∉ part) :
    parts.flatMap (splitAll sep) = parts := by
  induction parts with
  | nil => rfl
  | cons part parts ih =>
    obtain ⟨hp, hr⟩ := List.forall_mem_cons.mp h
    rw [List.flatMap_cons, splitAll_of_not_mem hp, ih hr, List.singleton_append]

theorem two_le_length_splitAll (h : sep ∈ text) : 2 ≤ (splitAll sep text).length := by
  obtain ⟨before, after, rfl⟩ := List.append_of_mem h
  have hb := List.length_pos_iff.mpr (splitAll_ne_nil sep before)
  have ha := List.length_pos_iff.mpr (splitAll_ne_nil sep after)
  rw [splitAll_sep, List.length_append]
  omega

/-- A part that holds the separator falls into several. -/
theorem length_flatMap_splitAll (h : ∃ part ∈ parts, sep ∈ part) :
    parts.length < (parts.flatMap (splitAll sep)).length := by
  obtain ⟨part, hp, hs⟩ := h
  obtain ⟨before, after, rfl⟩ := List.append_of_mem hp
  have one (parts : List (List Char)) : parts.length ≤ (parts.flatMap (splitAll sep)).length := by
    induction parts with
    | nil => exact Nat.zero_le _
    | cons part parts ih =>
      have hn := List.length_pos_iff.mpr (splitAll_ne_nil sep part)
      rw [List.flatMap_cons, List.length_append, List.length_cons]
      omega
  have h₁ := one before
  have h₂ := two_le_length_splitAll hs
  have h₃ := one after
  simp only [List.flatMap_append, List.flatMap_cons, List.length_append, List.length_cons]
  omega

end All

end TeamAccess.Text
