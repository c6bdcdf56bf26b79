import Mathlib.Data.List.Basic
import TeamAccess.Proofs.DatabaseUrl.Credentials
import TeamAccess.Proofs.Text.Numeral

/-! # Host, port and database of a database URL

Each of these parts is read back from its text, up to the sign that the next part begins with. The
host is written in brackets only if it has a colon. If another host begins with a bracket and closes
it behind some character, what stands between the brackets is taken for the host.
-/

namespace TeamAccess.DatabaseUrl

open Text

variable {text rest host inner after tail : List Char}

section Host

/-- A text begins with a bracket that is closed behind at least one character. -/
def Enclosed (text : List Char) : Prop :=
  ∃ inner after, text = '[' :: (inner ++ ']' :: after) ∧ inner ≠ []

/-- What a host is made of, with brackets around it or without. -/
structure Hostname (host : List Char) : Prop where
  filled : host ≠ []
  inner : ∀ c ∈ host, isInner c = true

/-- What may follow a host. No port has a closing bracket. -/
structure AfterHost (tail : List Char) : Prop where
  begins : Begins [':', '/', '?'] tail
  unclosed : ']' ∉ tail.takeWhile isInner

theorem isHost_iff {c : Char} : isHost c = true ↔ isInner c = true ∧ c ≠ ':' := by
  simp only [isHost, isInner, Bool.and_eq_true, bne_iff_ne]
  rw [and_right_comm]

theorem enclosed_of_append {body : List Char} (h : body ++ tail = inner ++ ']' :: after)
    (hi : inner ≠ []) (ht : ']' ∉ tail) : Enclosed ('[' :: body) := by
  rcases List.append_eq_append_iff.mp h with ⟨front, rfl, ho⟩ | ⟨back, rfl, ho⟩
  · exact absurd (ho ▸ by simp) ht
  · cases back with
    | nil =>
      rw [List.nil_append] at ho
      exact absurd (ho ▸ List.mem_cons_self) ht
    | cons d back =>
      obtain ⟨rfl, -⟩ := List.cons.inj ho
      exact ⟨inner, back, rfl, hi⟩

/-- The last closing bracket counts. -/
theorem Enclosed.last (h : Enclosed text) :
    ∃ inner after, text = '[' :: (inner ++ ']' :: after) ∧ inner ≠ [] ∧ ']' ∉ after := by
  obtain ⟨inner, after, rfl, hi⟩ := h
  cases hs : splitLast? ']' (inner ++ ']' :: after) with
  | none => exact absurd (by simp) (splitLast?_eq_none_iff.mp hs)
  | some cut =>
    obtain ⟨he, hn⟩ := splitLast?_eq_some_iff.mp hs
    refine ⟨cut.1, cut.2, congrArg _ he, fun hc => ?_, hn⟩
    obtain ⟨c, inner, rfl⟩ := List.exists_cons_of_ne_nil hi
    rw [hc] at he
    exact hn ((List.cons.inj he).2 ▸ by simp)

theorem eq_nil_of_getLast? (ha : ']' ∉ after)
    (hl : ('[' :: (inner ++ ']' :: after)).getLast? = some ']') : after = [] := by
  cases after with
  | nil => rfl
  | cons c after =>
    have whole : '[' :: (inner ++ ']' :: c :: after) = ('[' :: (inner ++ [']'])) ++ c :: after := by
      simp
    rw [whole, List.getLast?_append_cons] at hl
    exact absurd (List.mem_of_getLast? hl) ha

/-- A host is read up to its last closing bracket if it begins with one that is closed behind some
character, and otherwise up to the next part. -/
theorem readHost_cases (text : List Char) :
    (∃ body inner after, text = '[' :: body ∧ inner ≠ [] ∧
      splitLast? ']' (body.takeWhile isInner) = some (inner, after) ∧
      readHost text = (some (String.ofList inner), after ++ body.dropWhile isInner)) ∨
    readHost text = (if (text.takeWhile isHost).isEmpty then none
      else some (String.ofList (text.takeWhile isHost)), text.dropWhile isHost) := by
  unfold readHost
  dsimp only
  split
  · rename_i body
    split
    · rename_i inner after hs
      split
      · exact .inr rfl
      · rename_i hi
        exact .inl ⟨body, inner, after, rfl, by simpa using hi, hs, rfl⟩
    · exact .inr rfl
  · exact .inr rfl

theorem readHost_plain (hh : Hostname host) (hc : ':' ∉ host) (hn : ¬ Enclosed host)
    (ht : AfterHost tail) : readHost (host ++ tail) = (some (String.ofList host), tail) := by
  rcases readHost_cases (host ++ tail) with ⟨body, inner, after, he, hi, hs, -⟩ | h
  · -- a bracket that opens the host is closed in it or nowhere
    obtain ⟨c, front, rfl⟩ := List.exists_cons_of_ne_nil hh.filled
    rw [List.cons_append] at he
    obtain ⟨rfl, rfl⟩ := List.cons.inj he
    have cut := (splitLast?_eq_some_iff.mp hs).1
    rw [List.takeWhile_append_of_pos fun c hm => hh.inner c (List.mem_cons_of_mem _ hm)] at cut
    exact absurd (enclosed_of_append cut hi ht.unclosed) hn
  · have plain : ∀ c ∈ host, isHost c = true := fun c hm =>
      isHost_iff.mpr ⟨hh.inner c hm, fun he => hc (he ▸ hm)⟩
    have stop : [':', '/', '?'].any isHost = false := by decide
    have filled : ¬ host.isEmpty = true := by simpa using hh.filled
    rw [h, takeWhile_stop plain ht.begins stop, dropWhile_stop plain ht.begins stop, if_neg filled]

/-- What stands between the brackets is taken for the host. -/
theorem readHost_enclosed (hi : Hostname inner) (ha : ∀ c ∈ after, isInner c = true)
    (hl : ']' ∉ after) (ht : AfterHost tail) :
    readHost ('[' :: (inner ++ ']' :: after) ++ tail) =
      (some (String.ofList inner), after ++ tail) := by
  have body : ∀ c ∈ inner ++ ']' :: after, isInner c = true :=
    List.forall_mem_append.mpr ⟨hi.inner, List.forall_mem_cons.mpr ⟨by decide, ha⟩⟩
  have cut : splitLast? ']' ((inner ++ ']' :: after) ++ tail.takeWhile isInner) =
      some (inner, after ++ tail.takeWhile isInner) :=
    splitLast?_eq_some_iff.mpr ⟨by simp, List.not_mem_append hl ht.unclosed⟩
  have filled : inner.isEmpty = false := by simpa using hi.filled
  rw [List.cons_append, readHost]
  simp only [List.takeWhile_append_of_pos body, List.dropWhile_append_of_pos body, cut, filled]
  rw [if_neg Bool.false_ne_true, List.append_assoc, List.takeWhile_append_dropWhile]

theorem readHost_none (ht : Begins [':', '/', '?'] tail) : readHost tail = (none, tail) := by
  cases tail with
  | nil => rfl
  | cons c tail =>
    have mark := ht c rfl
    simp only [List.mem_cons, List.not_mem_nil, or_false] at mark
    rcases mark with rfl | rfl | rfl <;> rfl

theorem slash_not_mem_of_isInner (h : ∀ c ∈ text, isInner c = true) : '/' ∉ text :=
  fun hm => absurd (h '/' hm) (by decide)

/-- The characters of a host, none of them an at sign unless a slash stands before it. -/
theorem hostname_of_readHost {name : String} (h : readHost text = (some name, rest)) :
    Hostname name.toList ∧ (SignsBehindSlash text → '@' ∉ name.toList) := by
  rcases readHost_cases text with ⟨body, inner, after, rfl, hi, hs, hr⟩ | hr
  · rw [hr] at h
    cases h
    rw [String.toList_ofList]
    have cut := (splitLast?_eq_some_iff.mp hs).1
    have all : ∀ c ∈ inner, isInner c = true := fun c hc =>
      List.mem_takeWhile_imp (cut ▸ List.mem_append_left _ hc)
    have whole : '[' :: body = ('[' :: inner) ++ (']' :: after ++ body.dropWhile isInner) :=
      calc '[' :: body
          = '[' :: (body.takeWhile isInner ++ body.dropWhile isInner) := by
            rw [List.takeWhile_append_dropWhile]
        _ = ('[' :: inner) ++ (']' :: after ++ body.dropWhile isInner) := by simp [cut]
    refine ⟨⟨hi, all⟩, fun signs => ?_⟩
    rw [whole] at signs
    have unsigned := not_mem_of_signsBehindSlash signs
      (List.not_mem_cons_of_ne_of_not_mem (by decide) (slash_not_mem_of_isInner all))
    exact fun hm => unsigned (List.mem_cons_of_mem _ hm)
  · rw [hr] at h
    obtain ⟨hname, -⟩ := Prod.mk.inj h
    split at hname
    · cases hname
    · rename_i filled
      cases hname
      rw [String.toList_ofList]
      have all : ∀ c ∈ text.takeWhile isHost, isInner c = true :=
        fun c hc => (isHost_iff.mp (List.mem_takeWhile_imp hc)).1
      refine ⟨⟨by simpa using filled, all⟩, fun signs => ?_⟩
      rw [← List.takeWhile_append_dropWhile (p := isHost) (l := text)] at signs
      exact not_mem_of_signsBehindSlash signs (slash_not_mem_of_isInner all)

end Host

section Port

/-- A port as it is written. -/
def writtenPort (port : Option Int) : List Char :=
  (port.map fun n => ':' :: (toString n).toList).getD []


theorem isInner_toString (n : Int) : ∀ c ∈ (toString n).toList, isInner c = true := by
  intro c hc
  have slash := Numeral.not_mem_toString (c := '/') (by decide) (by decide) n
  have mark := Numeral.not_mem_toString (c := '?') (by decide) (by decide) n
  exact Bool.and_eq_true_iff.mpr ⟨all_ne_of_not_mem slash c hc, all_ne_of_not_mem mark c hc⟩

theorem readPort_none (h : ∀ rest, text ≠ ':' :: rest) : readPort text = .ok (none, text) := by
  unfold readPort
  split
  · exact absurd rfl (h _)
  · rfl

theorem readPort_written {port : Option Int}
    (hp : ∀ n ∈ port, (Nat.toDigits 10 n.natAbs).length ≤ Numeral.maxDigits)
    (hr : Begins ['/', '?'] rest) : readPort (writtenPort port ++ rest) = .ok (port, rest) := by
  have stop : ['/', '?'].any isInner = false := by decide
  cases port with
  | none =>
    refine readPort_none fun tail he => ?_
    have mark := hr ':' (by simpa [writtenPort] using congrArg List.head? he)
    revert mark
    decide
  | some n =>
    have inner := isInner_toString n
    have written : writtenPort (some n) ++ rest = ':' :: ((toString n).toList ++ rest) := rfl
    rw [written, readPort]
    simp only [takeWhile_stop inner hr stop, dropWhile_stop inner hr stop, String.ofList_toList,
      Numeral.liberal?_toString (hp n rfl), if_neg (Numeral.toString_ne_empty n)]

theorem not_mem_writtenPort {c : Char} (hd : c.isDigit = false) (hs : c ≠ '-') (hc : c ≠ ':')
    (port : Option Int) : c ∉ writtenPort port := by
  cases port with
  | none => exact List.not_mem_nil
  | some n => exact List.not_mem_cons_of_ne_of_not_mem hc (Numeral.not_mem_toString hd hs n)

theorem afterHost_writtenPort (hr : Begins ['/', '?'] rest) (port : Option Int) :
    AfterHost (writtenPort port ++ rest) := by
  have stop : ['/', '?'].any isInner = false := by decide
  have inner : ∀ c ∈ writtenPort port, isInner c = true := by
    cases port with
    | none => nofun
    | some n => exact List.forall_mem_cons.mpr ⟨by decide, isInner_toString n⟩
  constructor
  · cases port with
    | none => exact hr.mono (by decide)
    | some n => exact .cons (by decide) _
  · rw [takeWhile_stop inner hr stop]
    exact not_mem_writtenPort (by decide) (by decide) (by decide) port

theorem length_le_of_readPort {port : Option Int} (h : readPort text = .ok (port, rest)) :
    ∀ n ∈ port, (Nat.toDigits 10 n.natAbs).length ≤ Numeral.maxDigits := by
  unfold readPort at h
  dsimp only at h
  split at h
  · split at h
    · cases h
    · split at h
      · rename_i n hn
        cases h
        rintro _ ⟨⟩
        exact Numeral.length_toDigits_of_liberal? hn
      · cases h
  · cases h
    nofun

end Port

section Database

/-- A database as it is written. -/
def writtenDatabase (database : Option String) : List Char :=
  (database.map fun d => '/' :: Percent.encode [' ', '+', '/'] d.toList).getD []

theorem not_mem_writtenDatabase {c : Char} (hu : Percent.isUnreserved c = false)
    (hs : c ∉ [' ', '+', '/']) (hp : c ≠ '%') (database : Option String) :
    c ∉ writtenDatabase database := by
  cases database with
  | none => exact List.not_mem_nil
  | some d =>
    have slash : c ≠ '/' := by
      rintro rfl
      exact hs (by decide)
    exact List.not_mem_cons_of_ne_of_not_mem slash (Percent.not_mem_encode hu hs hp _)

theorem begins_writtenDatabase (hr : Begins ['?'] rest) (database : Option String) :
    Begins ['/', '?'] (writtenDatabase database ++ rest) := by
  cases database with
  | none => exact hr.mono (by decide)
  | some d => exact .cons (by decide) _

theorem readDatabase_written (hr : Begins ['?'] rest) (database : Option String) :
    readDatabase (writtenDatabase database ++ rest) = (database, rest) := by
  cases database with
  | none =>
    cases rest with
    | nil => rfl
    | cons c rest =>
      obtain rfl := List.mem_singleton.mp (hr c rfl)
      rfl
  | some d =>
    have plain : ∀ c ∈ Percent.encode [' ', '+', '/'] d.toList, (c != '?') = true :=
      all_ne_of_not_mem (Percent.not_mem_encode (by decide) (by decide) (by decide) _)
    have stop : ['?'].any (· != '?') = false := by decide
    have written : writtenDatabase (some d) ++ rest =
        '/' :: (Percent.encode [' ', '+', '/'] d.toList ++ rest) := rfl
    rw [written, readDatabase]
    simp only [takeWhile_stop plain hr stop, dropWhile_stop plain hr stop]
    rw [Percent.decode_encode (by decide), String.ofList_toList]

end Database

end TeamAccess.DatabaseUrl
