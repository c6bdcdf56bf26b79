import Mathlib.Data.List.Count
import TeamAccess.Registry.Record

/-! # How much of a key is shown

A key is meant to be shown with all its word characters but the last four hidden. A character is
hidden by what directly follows it, so this is what happens exactly if the word characters of the
key stand together; a key whose word characters are separated shows more than four of them.
-/

namespace TeamAccess

variable {p : Char → Bool} {text : List Char}

/-- Hides all characters of a class but the last `n`. -/
def hideBut (p : Char → Bool) (n : Nat) : List Char → List Char
  | [] => []
  | c :: rest => (if p c && decide (n ≤ rest.countP p) then '*' else c) :: hideBut p n rest

/-- No other character stands between two characters of a class. -/
def Together (p : Char → Bool) (text : List Char) : Prop :=
  ∃ before run after, text = before ++ run ++ after ∧
    (∀ c ∈ before, p c = false) ∧ (∀ c ∈ run, p c = true) ∧ ∀ c ∈ after, p c = false

section Runs

theorem together_append {run after : List Char} (hr : ∀ c ∈ run, p c = true)
    (ha : ∀ c ∈ after, p c = false) : Together p (run ++ after) :=
  ⟨[], run, after, rfl, by simp, hr, ha⟩

theorem Together.cons_out {c : Char} (h : Together p text) (hc : p c = false) :
    Together p (c :: text) := by
  obtain ⟨before, run, after, rfl, hb, hr, ha⟩ := h
  refine ⟨c :: before, run, after, rfl, ?_, hr, ha⟩
  rintro d (_ | ⟨_, hd⟩)
  · exact hc
  · exact hb d hd

theorem countP_eq_zero_of_none (h : ∀ c ∈ text, p c = false) : text.countP p = 0 :=
  List.countP_eq_zero.mpr fun c hc => by simp [h c hc]

theorem startsWithRun_iff {n : Nat} :
    startsWithRun p n text = true ↔
      ∃ run rest, text = run ++ rest ∧ run.length = n ∧ ∀ c ∈ run, p c = true := by
  simp only [startsWithRun, Bool.and_eq_true, beq_iff_eq, List.all_eq_true]
  constructor
  · rintro ⟨hl, hp⟩
    exact ⟨text.take n, text.drop n, (List.take_append_drop n text).symm, hl, hp⟩
  · rintro ⟨run, rest, rfl, rfl, hp⟩
    rw [List.take_left]
    exact ⟨rfl, hp⟩

theorem le_countP_of_startsWithRun {n : Nat} (h : startsWithRun p n text = true) :
    n ≤ text.countP p := by
  obtain ⟨run, rest, rfl, rfl, hr⟩ := startsWithRun_iff.mp h
  rw [List.countP_append, List.countP_eq_length.mpr hr]
  exact Nat.le_add_right _ _

/-- A character of the class joins those that directly follow it. -/
theorem Together.cons_in {c : Char} (h : Together p text) (hc : p c = true)
    (hf : startsWithRun p 4 text = true) : Together p (c :: text) := by
  obtain ⟨before, run, after, rfl, hb, hr, ha⟩ := h
  have none_before : before = [] := by
    cases before with
    | nil => rfl
    | cons d before =>
      obtain ⟨first, rest, he, hl, hp⟩ := startsWithRun_iff.mp hf
      cases first with
      | nil => simp at hl
      | cons e first =>
        obtain ⟨rfl, -⟩ := List.cons.inj he
        simp [hb d (by simp)] at hp
  rw [none_before]
  change Together p ((c :: run) ++ after)
  refine together_append ?_ ha
  rintro d (_ | ⟨_, hd⟩)
  · exact hc
  · exact hr d hd

/-- Where the class stands together, as many characters follow directly as follow at all. -/
theorem startsWithRun_append {run after : List Char} {n : Nat} (hr : ∀ c ∈ run, p c = true)
    (ha : ∀ c ∈ after, p c = false) :
    startsWithRun p n (run ++ after) = decide (n ≤ (run ++ after).countP p) := by
  have hc : (run ++ after).countP p = run.length := by
    rw [List.countP_append, List.countP_eq_length.mpr hr, countP_eq_zero_of_none ha, Nat.add_zero]
  rw [Bool.eq_iff_iff, decide_eq_true_eq]
  constructor
  · exact le_countP_of_startsWithRun
  · intro h
    refine startsWithRun_iff.mpr ⟨run.take n, run.drop n ++ after, ?_, ?_, ?_⟩
    · rw [← List.append_assoc, List.take_append_drop]
    · exact List.length_take_of_le (hc ▸ h)
    · exact fun c hm => hr c (List.mem_of_mem_take hm)

end Runs

section Shown

/-- What stands together is hidden but for its last four characters. -/
theorem maskChars_of_together (h : Together p text) : maskChars p text = hideBut p 4 text := by
  obtain ⟨before, run, after, rfl, hb, hr, ha⟩ := h
  have rest : maskChars p after = hideBut p 4 after := by
    clear hr hb
    induction after with
    | nil => rfl
    | cons c after ih =>
      have hc : p c = false := ha c (by simp)
      rw [maskChars, hideBut, ih fun d hd => ha d (by simp [hd])]
      simp [hc]
  have middle : maskChars p (run ++ after) = hideBut p 4 (run ++ after) := by
    clear hb
    induction run with
    | nil => exact rest
    | cons c run ih =>
      have hr' : ∀ d ∈ run, p d = true := fun d hd => hr d (by simp [hd])
      rw [List.cons_append, maskChars, hideBut, startsWithRun_append hr' ha, ih hr']
  rw [List.append_assoc]
  induction before with
  | nil => exact middle
  | cons c before ih =>
    have hc : p c = false := hb c (by simp)
    rw [List.cons_append, maskChars, hideBut, ih fun d hd => hb d (by simp [hd])]
    simp [hc]

variable (hs : p '*' = false)

include hs

theorem countP_maskChars_cons (c : Char) (rest : List Char) :
    (maskChars p (c :: rest)).countP p =
      (maskChars p rest).countP p + if p c && !startsWithRun p 4 rest then 1 else 0 := by
  rw [maskChars, List.countP_cons]
  cases hc : p c <;> cases hr : startsWithRun p 4 rest <;> simp [hc, hs]

theorem countP_hideBut (n : Nat) (text : List Char) :
    (hideBut p n text).countP p = min n (text.countP p) := by
  induction text with
  | nil => simp [hideBut]
  | cons c rest ih =>
    rw [hideBut, List.countP_cons, List.countP_cons, ih]
    by_cases hc : p c = true
    · by_cases hn : n ≤ rest.countP p
      · simp [hc, hn, hs]
        omega
      · simp [hc, hn]
        omega
    · simp [hc]

/-- Four characters of the class are shown, or all that there are. -/
theorem le_countP_maskChars (text : List Char) :
    min 4 (text.countP p) ≤ (maskChars p text).countP p := by
  induction text with
  | nil => simp
  | cons c rest ih =>
    rw [countP_maskChars_cons hs, List.countP_cons]
    cases hc : p c with
    | false => simpa using ih
    | true =>
      cases hr : startsWithRun p 4 rest with
      | true =>
        have := le_countP_of_startsWithRun hr
        simp
        omega
      | false =>
        simp
        omega

/-- If no more than four characters of a longer class are shown, the class stands together. -/
theorem together_of_countP_maskChars (h : 4 < text.countP p)
    (hm : (maskChars p text).countP p ≤ 4) : Together p text := by
  induction text with
  | nil => simp at h
  | cons c rest ih =>
    rw [countP_maskChars_cons hs] at hm
    rw [List.countP_cons] at h
    cases hc : p c with
    | false => exact (ih (by simpa [hc] using h) (by simpa [hc] using hm)).cons_out hc
    | true =>
      cases hf : startsWithRun p 4 rest with
      | false =>
        -- `c` is shown, and so are four of those that follow
        have hle := le_countP_maskChars hs rest
        simp [hc, hf] at hm h
        omega
      | true =>
        simp [hc, hf] at hm h
        by_cases hn : 4 < rest.countP p
        · exact (ih hn hm).cons_in hc hf
        · obtain ⟨run, after, rfl, hl, hr⟩ := startsWithRun_iff.mp hf
          have ha : after.countP p = 0 := by
            rw [List.countP_append, List.countP_eq_length.mpr hr] at hn
            omega
          refine (together_append hr fun d hd => ?_).cons_in hc hf
          simpa using List.countP_eq_zero.mp ha d hd

end Shown

section Keys

theorem isWord_star : Text.isWord '*' = false := by decide +kernel

/-- A key with more than four word characters is shown with all of them hidden but the last four,
and no more than four are shown of it in a log or to its holder, exactly if its word characters
stand together. -/
theorem maskKey_hides_iff_together (key : String) (h : 4 < key.toList.countP Text.isWord) :
    (maskKey key = String.ofList (hideBut Text.isWord 4 key.toList) ↔
      Together Text.isWord key.toList) ∧
    ∀ id tracked, ((PrincipalHandle.mk .apiKey id key tracked).display.toList.countP Text.isWord ≤ 4
      ↔ Together Text.isWord key.toList) := by
  have shown : (maskKey key).toList = maskChars Text.isWord key.toList := by simp [maskKey]
  have few : (maskChars Text.isWord key.toList).countP Text.isWord ≤ 4 ↔
      Together Text.isWord key.toList := by
    refine ⟨together_of_countP_maskChars isWord_star h, fun ht => ?_⟩
    rw [maskChars_of_together ht, countP_hideBut isWord_star]
    exact Nat.min_le_left 4 _
  constructor
  · constructor
    · intro he
      refine few.mp ?_
      rw [← shown, he, String.toList_ofList, countP_hideBut isWord_star]
      exact Nat.min_le_left 4 _
    · intro ht
      rw [maskKey, maskChars_of_together ht]
  · intro id tracked
    change (maskKey key).toList.countP Text.isWord ≤ 4 ↔ _
    rw [shown, few]

/-- A key whose word characters are separated by a hyphen. -/
theorem maskKey_hides_iff_together_separated :
    4 < "key-0001".toList.countP Text.isWord ∧ ¬ Together Text.isWord "key-0001".toList := by
  have h : 4 < "key-0001".toList.countP Text.isWord := by decide +kernel
  refine ⟨h, fun ht => ?_⟩
  have he := (maskKey_hides_iff_together "key-0001" h).1.mpr ht
  exact absurd he (by decide +kernel)

/-- Such a key is shown as a whole. -/
theorem maskKey_shows_separated :
    ¬ ∀ key : String, 4 < key.toList.countP Text.isWord →
      maskKey key = String.ofList (hideBut Text.isWord 4 key.toList) := by
  intro h
  exact absurd (h "key-0001" (by decide +kernel)) (by decide +kernel)

end Keys

end TeamAccess
