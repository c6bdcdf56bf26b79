import Mathlib.Data.List.SplitBy
import TeamAccess.Proofs.Mask

/-! # Masks run by run

A text falls into maximal stretches inside and outside a class of characters. A mask acts on each
stretch by itself: it hides all but the last four characters of a run of the class and leaves the
rest as it is. The character it puts in is outside the class, so a mask has nothing left to hide.
-/

namespace TeamAccess

variable {p : Char → Bool} {run rest text : List Char}

/-- The maximal stretches of a text that lie inside or outside a class. -/
def stretches (p : Char → Bool) (text : List Char) : List (List Char) :=
  text.splitBy fun c d => p c == p d

/-- A run with its last four characters shown. -/
def hideRun (run : List Char) : List Char :=
  List.replicate (run.length - 4) '*' ++ run.drop (run.length - 4)

/-- A stretch as a mask shows it. -/
def maskStretch (p : Char → Bool) (stretch : List Char) : List Char :=
  if stretch.all p then hideRun stretch else stretch

/-- Two stretches differ at most in what a mask hides of them: they are of one length and one kind,
runs of the class end in the same four characters, and other stretches are the same. -/
structure Alike (p : Char → Bool) (s t : List Char) : Prop where
  length : s.length = t.length
  kind : s.all p = t.all p
  tail : s.all p = true → s.drop (s.length - 4) = t.drop (t.length - 4)
  other : s.all p = false → s = t

section Stretches

theorem hideRun_cons (c : Char) (run : List Char) :
    hideRun (c :: run) = (if 4 ≤ run.length then '*' else c) :: hideRun run := by
  unfold hideRun
  by_cases h : 4 ≤ run.length
  · have hl : (c :: run).length - 4 = (run.length - 4) + 1 := by rw [List.length_cons]; omega
    rw [hl, if_pos h]
    rfl
  · have hl : (c :: run).length - 4 = 0 := by rw [List.length_cons]; omega
    have hr : run.length - 4 = 0 := by omega
    rw [hl, hr, if_neg h]
    rfl

theorem Alike.maskStretch_eq {s t : List Char} (h : Alike p s t) :
    maskStretch p s = maskStretch p t := by
  unfold maskStretch
  cases hs : s.all p with
  | true => rw [← h.kind, hs, if_pos rfl, if_pos rfl, hideRun, hideRun, h.tail hs, h.length]
  | false => rw [← h.kind, hs, h.other hs]

theorem uniform_of_chain {c : Char} (h : (c :: run).IsChain fun d e => p d == p e) :
    ∀ d ∈ c :: run, p d = p c := by
  induction run generalizing c with
  | nil => simp
  | cons e run ih =>
    obtain ⟨he, hr⟩ := List.isChain_cons_cons.mp h
    have same : p e = p c := (eq_of_beq he).symm
    rintro d (_ | ⟨_, hd⟩)
    · rfl
    · exact (ih hr d hd).trans same

end Stretches

section Runs

theorem startsWithRun_cons (p : Char → Bool) (n : Nat) (c : Char) (rest : List Char) :
    startsWithRun p (n + 1) (c :: rest) = (p c && startsWithRun p n rest) := by
  rw [Bool.eq_iff_iff]
  simp [startsWithRun]
  tauto

/-- What begins outside the class ends a run. -/
theorem startsWithRun_run (hr : ∀ c ∈ run, p c = true) (ho : ∀ c ∈ rest.head?, p c = false)
    (n : Nat) : startsWithRun p n (run ++ rest) = decide (n ≤ run.length) := by
  induction run generalizing n with
  | nil =>
    cases n with
    | zero => rfl
    | succ n =>
      cases rest with
      | nil => rfl
      | cons d rest => simp [startsWithRun_cons, ho d rfl]
  | cons c run ih =>
    obtain ⟨hc, hr⟩ := List.forall_mem_cons.mp hr
    cases n with
    | zero => rfl
    | succ n =>
      rw [List.cons_append, startsWithRun_cons, hc, ih hr]
      simp

theorem maskChars_run (hr : ∀ c ∈ run, p c = true) (ho : ∀ c ∈ rest.head?, p c = false) :
    maskChars p (run ++ rest) = hideRun run ++ maskChars p rest := by
  induction run with
  | nil => rfl
  | cons c run ih =>
    obtain ⟨hc, hr⟩ := List.forall_mem_cons.mp hr
    rw [List.cons_append, maskChars, startsWithRun_run hr ho, ih hr, hideRun_cons, hc,
      List.cons_append]
    simp

theorem maskChars_other (h : ∀ c ∈ text, p c = false) :
    maskChars p (text ++ rest) = text ++ maskChars p rest := by
  induction text with
  | nil => rfl
  | cons c text ih =>
    obtain ⟨hc, ht⟩ := List.forall_mem_cons.mp h
    rw [List.cons_append, maskChars, ih ht, hc]
    simp

/-- What follows a run begins outside the class if the next stretch is of the other kind. -/
theorem head_flatten_outside {parts : List (List Char)} (hr : ∀ c ∈ run, p c = true)
    (ha : (run :: parts).IsChain fun s t => ∃ hs ht, (p (s.getLast hs) == p (t.head ht)) = false) :
    ∀ c ∈ parts.flatten.head?, p c = false := by
  cases parts with
  | nil => nofun
  | cons next parts =>
    obtain ⟨⟨hs, ht, differ⟩, -⟩ := List.isChain_cons_cons.mp ha
    obtain ⟨d, next, rfl⟩ := List.exists_cons_of_ne_nil ht
    rintro c ⟨⟩
    rw [hr _ (List.getLast_mem hs)] at differ
    simpa using differ

theorem maskChars_flatten {parts : List (List Char)} (hn : [] ∉ parts)
    (hu : ∀ s ∈ parts, s.IsChain fun c d => p c == p d)
    (ha : parts.IsChain fun s t => ∃ hs ht, (p (s.getLast hs) == p (t.head ht)) = false) :
    maskChars p parts.flatten = parts.flatMap (maskStretch p) := by
  induction parts with
  | nil => rfl
  | cons s parts ih =>
    obtain ⟨hs, hp⟩ := List.forall_mem_cons.mp hu
    obtain ⟨hne, hm⟩ := not_or.mp (mt List.mem_cons.mpr hn)
    obtain ⟨c, s, rfl⟩ := List.exists_cons_of_ne_nil (Ne.symm hne)
    have same := uniform_of_chain hs
    rw [List.flatten_cons, List.flatMap_cons, ← ih hm hp ha.tail]
    cases hc : p c with
    | true =>
      have hr : ∀ d ∈ c :: s, p d = true := fun d hd => (same d hd).trans hc
      rw [maskChars_run hr (head_flatten_outside hr ha), maskStretch,
        if_pos (List.all_eq_true.mpr hr)]
    | false =>
      have ho : ∀ d ∈ c :: s, p d = false := fun d hd => (same d hd).trans hc
      rw [maskChars_other ho, maskStretch, if_neg (by simp [hc])]

/-- A mask acts on each maximal stretch by itself. -/
theorem maskChars_stretches (p : Char → Bool) (text : List Char) :
    maskChars p text = (stretches p text).flatMap (maskStretch p) := by
  have parts := maskChars_flatten (p := p) (List.nil_notMem_splitBy (fun c d => p c == p d) text)
    (fun s hs => List.isChain_of_mem_splitBy hs)
    (List.isChain_getLast_head_splitBy (fun c d => p c == p d) text)
  rwa [List.flatten_splitBy] at parts

theorem length_maskChars (p : Char → Bool) (text : List Char) :
    (maskChars p text).length = text.length := by
  induction text with
  | nil => rfl
  | cons c rest ih => rw [maskChars, List.length_cons, List.length_cons, ih]

theorem maskChars_eq_of_alike {other : List Char}
    (h : List.Forall₂ (Alike p) (stretches p text) (stretches p other)) :
    maskChars p text = maskChars p other := by
  rw [maskChars_stretches, maskChars_stretches]
  generalize stretches p text = parts, stretches p other = others at h
  induction h with
  | nil => rfl
  | cons hs _ ih => rw [List.flatMap_cons, List.flatMap_cons, hs.maskStretch_eq, ih]

end Runs

section Again

/-- A run in a mask was a run before. -/
theorem startsWithRun_of_maskChars (hs : p '*' = false) {n : Nat}
    (h : startsWithRun p n (maskChars p text) = true) : startsWithRun p n text = true := by
  induction n generalizing text with
  | zero => rfl
  | succ n ih =>
    cases text with
    | nil => exact h
    | cons c rest =>
      rw [maskChars, startsWithRun_cons, Bool.and_eq_true] at h
      obtain ⟨hc, hr⟩ := h
      have shown : p c = true := by
        split at hc
        · exact absurd hc (by simp [hs])
        · exact hc
      rw [startsWithRun_cons, shown, ih hr]
      rfl

theorem maskChars_maskChars (hs : p '*' = false) (text : List Char) :
    maskChars p (maskChars p text) = maskChars p text := by
  induction text with
  | nil => rfl
  | cons c rest ih =>
    rw [maskChars]
    split
    · rw [maskChars, ih, hs]
      simp
    · rename_i hc
      rw [maskChars, ih, if_neg]
      intro again
      obtain ⟨hw, hf⟩ := Bool.and_eq_true_iff.mp again
      exact hc (Bool.and_eq_true_iff.mpr ⟨hw, startsWithRun_of_maskChars hs hf⟩)

end Again

section Keys

/-- The mask of a key is that of its maximal runs of word characters, one by one: it is as long as
the key, keeps what is no word character and the last four characters of every run, and hides the
rest. Masking again changes nothing, and keys that differ only in what is hidden have one mask. -/
theorem maskKey_by_runs (key : String) :
    (maskKey key).toList = (stretches Text.isWord key.toList).flatMap (maskStretch Text.isWord) ∧
    (maskKey key).length = key.length ∧ maskKey (maskKey key) = maskKey key ∧
    ∀ other : String, List.Forall₂ (Alike Text.isWord) (stretches Text.isWord key.toList)
      (stretches Text.isWord other.toList) → maskKey key = maskKey other := by
  have shown : (maskKey key).toList = maskChars Text.isWord key.toList := by simp [maskKey]
  refine ⟨?_, ?_, ?_, fun other h => ?_⟩
  · rw [shown, maskChars_stretches]
  · rw [← String.length_toList, shown, length_maskChars, String.length_toList]
  · rw [maskKey, shown, maskChars_maskChars isWord_star]
    rfl
  · rw [maskKey, maskKey, maskChars_eq_of_alike h]

/-- Two keys of two runs that differ in the first characters of the longer one. -/
theorem maskKey_by_runs_renewed :
    List.Forall₂ (Alike Text.isWord) (stretches Text.isWord "oldkey0001-ab".toList)
      (stretches Text.isWord "newkey0001-ab".toList) ∧
    maskKey "oldkey0001-ab" = maskKey "newkey0001-ab" := by
  have old : stretches Text.isWord "oldkey0001-ab".toList =
      ["oldkey0001".toList, ['-'], ['a', 'b']] := by decide +kernel
  have new : stretches Text.isWord "newkey0001-ab".toList =
      ["newkey0001".toList, ['-'], ['a', 'b']] := by decide +kernel
  have alike : List.Forall₂ (Alike Text.isWord) (stretches Text.isWord "oldkey0001-ab".toList)
      (stretches Text.isWord "newkey0001-ab".toList) := by
    rw [old, new]
    refine .cons ⟨by decide, by decide +kernel, fun _ => by decide, ?_⟩
      (.cons ⟨rfl, rfl, fun _ => rfl, fun _ => rfl⟩
        (.cons ⟨rfl, rfl, fun _ => rfl, fun _ => rfl⟩ .nil))
    intro no
    exact absurd no (by decide +kernel)
  exact ⟨alike, (maskKey_by_runs "oldkey0001-ab").2.2.2 _ alike⟩

end Keys

end TeamAccess
