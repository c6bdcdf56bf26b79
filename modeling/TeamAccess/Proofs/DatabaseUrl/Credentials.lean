import Mathlib.Data.List.TakeWhile
import TeamAccess.DatabaseUrl
import TeamAccess.Proofs.Text.Percent
import TeamAccess.Proofs.Text.Split

/-! # Driver and credentials of a database URL

The driver and the credentials are read back from their text, since what ends each of them does not
occur in it. Credentials that are not written are not read if no at sign follows. What is left after
credentials without a password has at signs only behind a slash.
-/

namespace TeamAccess.DatabaseUrl

open Text

variable {text rest : List Char}

section Driver

theorem readDriver_written {driver : String} (hne : driver ≠ "")
    (hd : ∀ c ∈ driver.toList, isDriver c = true) (rest : List Char) :
    readDriver (driver.toList ++ ':' :: '/' :: '/' :: rest) = .ok (driver, rest) := by
  have begins : Begins [':'] (':' :: '/' :: '/' :: rest) := .cons (by decide) _
  have stop : [':'].any isDriver = false := by decide +kernel
  have filled : driver.toList.isEmpty = false := by simpa using hne
  rw [readDriver, takeWhile_stop hd begins stop, dropWhile_stop hd begins stop]
  simp [filled]

theorem isDriver_of_readDriver {driver : String} (h : readDriver text = .ok (driver, rest)) :
    driver ≠ "" ∧ ∀ c ∈ driver.toList, isDriver c = true := by
  unfold readDriver at h
  dsimp only at h
  split at h
  · split at h
    · cases h
    · rename_i hne
      cases h
      refine ⟨by simpa using hne, fun c hc => ?_⟩
      rw [String.toList_ofList] at hc
      exact List.mem_takeWhile_imp hc
  · cases h

end Driver

section Credentials

/-- A user name or a password as it is written. -/
def writtenName (name : String) : List Char := Percent.encode [' ', '+'] name.toList

theorem decode_writtenName (name : String) :
    String.ofList (Percent.decode (writtenName name)) = name := by
  rw [writtenName, Percent.decode_encode (by decide), String.ofList_toList]

theorem not_mem_writtenName {c : Char} (hu : Percent.isUnreserved c = false)
    (hs : c ∉ [' ', '+']) (hp : c ≠ '%') (name : String) : c ∉ writtenName name :=
  Percent.not_mem_encode hu hs hp name.toList

theorem at_not_mem_writtenName (name : String) : '@' ∉ writtenName name :=
  not_mem_writtenName (by decide) (by decide) (by decide) name

theorem isName_writtenName (name : String) : ∀ c ∈ writtenName name, isName c = true := by
  intro c hc
  have colon : ':' ∉ writtenName name :=
    not_mem_writtenName (by decide) (by decide) (by decide) name
  have slash : '/' ∉ writtenName name :=
    not_mem_writtenName (by decide) (by decide) (by decide) name
  exact Bool.and_eq_true_iff.mpr ⟨all_ne_of_not_mem colon c hc, all_ne_of_not_mem slash c hc⟩

/-- No at sign follows a colon that ends the name, so that there is no password. -/
def Passwordless (text : List Char) : Prop :=
  ∀ rest, text.dropWhile isName = ':' :: rest → '@' ∉ rest

theorem passwordless_of_not_mem (h : '@' ∉ text.dropWhile isName) : Passwordless text :=
  fun _ hd hm => h (hd ▸ List.mem_cons_of_mem _ hm)

/-- Without a password the name alone may stand before the text. -/
theorem readCredentials_of_passwordless (h : Passwordless text) :
    readCredentials text =
      match splitLast? '@' (text.takeWhile isName) with
      | some (name, rest) =>
        (some (String.ofList (Percent.decode name), none), rest ++ text.dropWhile isName)
      | none => (none, text) := by
  unfold readCredentials
  dsimp only
  split
  · rename_i rest hd
    have unsigned := splitFirst?_eq_none_iff.mpr (h rest hd)
    cases splitLast? '@' (text.takeWhile isName) <;> simp only [unsigned]
  · rfl

theorem password_isSome_of_readCredentials (h : ¬ Passwordless text) :
    ((readCredentials text).1.bind (·.2)).isSome := by
  simp only [Passwordless, not_forall, not_not] at h
  obtain ⟨rest, hd, hm⟩ := h
  cases hs : splitFirst? '@' rest with
  | none => exact absurd hm (splitFirst?_eq_none_iff.mp hs)
  | some cut => simp [readCredentials, hd, hs]

theorem readCredentials_none (h : '@' ∉ text) : readCredentials text = (none, text) := by
  have unsigned : splitLast? '@' (text.takeWhile isName) = none :=
    splitLast?_eq_none_iff.mpr fun hm => h ((List.takeWhile_sublist _).mem hm)
  have bare := passwordless_of_not_mem fun hm => h ((List.dropWhile_sublist _).mem hm)
  rw [readCredentials_of_passwordless bare, unsigned]

theorem readCredentials_name (h : '@' ∉ text) (name : String) :
    readCredentials (writtenName name ++ '@' :: text) = (some (name, none), text) := by
  -- the name and its at sign are part of one stretch, whose last at sign is that one
  have signed : ∀ c ∈ writtenName name ++ ['@'], isName c = true :=
    List.forall_mem_append.mpr ⟨isName_writtenName name, List.forall_mem_singleton.mpr (by decide)⟩
  have whole : writtenName name ++ '@' :: text = (writtenName name ++ ['@']) ++ text := by simp
  have stretch : (writtenName name ++ '@' :: text).takeWhile isName =
      writtenName name ++ '@' :: text.takeWhile isName := by
    rw [whole, List.takeWhile_append_of_pos signed]
    simp
  have after : (writtenName name ++ '@' :: text).dropWhile isName = text.dropWhile isName := by
    rw [whole, List.dropWhile_append_of_pos signed]
  have cut : splitLast? '@' (writtenName name ++ '@' :: text.takeWhile isName) =
      some (writtenName name, text.takeWhile isName) :=
    splitLast?_eq_some_iff.mpr ⟨rfl, fun hm => h ((List.takeWhile_sublist _).mem hm)⟩
  have bare : Passwordless (writtenName name ++ '@' :: text) := passwordless_of_not_mem <| by
    rw [after]
    exact fun hm => h ((List.dropWhile_sublist _).mem hm)
  rw [readCredentials_of_passwordless bare, stretch, after, cut]
  simp only [decode_writtenName, List.takeWhile_append_dropWhile]

theorem readCredentials_password (name password : String) (text : List Char) :
    readCredentials (writtenName name ++ ':' :: (writtenName password ++ '@' :: text)) =
      (some (name, some password), text) := by
  have begins : Begins [':'] (':' :: (writtenName password ++ '@' :: text)) := .cons (by decide) _
  have stop : [':'].any isName = false := by decide
  have cut : splitFirst? '@' (writtenName password ++ '@' :: text) =
      some (writtenName password, text) :=
    splitFirst?_eq_some_iff.mpr ⟨rfl, at_not_mem_writtenName password⟩
  simp only [readCredentials, takeWhile_stop (isName_writtenName name) begins stop,
    dropWhile_stop (isName_writtenName name) begins stop, cut, decode_writtenName]

/-- An at sign stands only behind a slash. -/
def SignsBehindSlash (text : List Char) : Prop := '@' ∉ text.takeWhile (· != '/')

theorem signsBehindSlash_append {front back : List Char} (hf : '@' ∉ front)
    (hb : SignsBehindSlash back) : SignsBehindSlash (front ++ back) := by
  rw [SignsBehindSlash, List.takeWhile_append]
  split
  · exact List.not_mem_append hf hb
  · exact fun hm => hf ((List.takeWhile_sublist _).mem hm)

theorem not_mem_of_signsBehindSlash {front back : List Char}
    (h : SignsBehindSlash (front ++ back)) (hf : '/' ∉ front) : '@' ∉ front := by
  rw [SignsBehindSlash, List.takeWhile_append_of_pos (all_ne_of_not_mem hf)] at h
  exact fun hm => h (List.mem_append_left _ hm)

theorem Passwordless.signsBehindSlash (h : Passwordless text) :
    SignsBehindSlash (text.dropWhile isName) := by
  cases hd : text.dropWhile isName with
  | nil => exact List.not_mem_nil
  | cons c rest =>
    have stop : isName c = false := by
      have head := List.head?_dropWhile_not isName text
      simpa [hd] using head
    by_cases hc : c = '/'
    · simp [SignsBehindSlash, hc]
    · obtain rfl : c = ':' := by simpa [isName, hc] using stop
      have unsigned : '@' ∉ ':' :: rest :=
        List.not_mem_cons_of_ne_of_not_mem (by decide) (h rest hd)
      exact fun hm => unsigned ((List.takeWhile_sublist _).mem hm)

/-- What is left after credentials without a password has at signs only behind a slash. -/
theorem signsBehindSlash_of_readCredentials {credentials : Option (String × Option String)}
    (h : readCredentials text = (credentials, rest)) (hp : credentials.bind (·.2) = none) :
    SignsBehindSlash rest := by
  by_cases hb : Passwordless text
  · rw [readCredentials_of_passwordless hb] at h
    split at h
    · rename_i name front hs
      cases h
      exact signsBehindSlash_append (splitLast?_eq_some_iff.mp hs).2 hb.signsBehindSlash
    · rename_i hs
      cases h
      rw [← List.takeWhile_append_dropWhile (p := isName) (l := text)]
      exact signsBehindSlash_append (splitLast?_eq_none_iff.mp hs) hb.signsBehindSlash
  · have signed := password_isSome_of_readCredentials hb
    rw [h, hp] at signed
    cases signed

end Credentials

end TeamAccess.DatabaseUrl
