import TeamAccess.Proofs.Http.Gate
import TeamAccess.Proofs.Token.Issue

/-! # Sending a token

A token holds no blanks, so that it survives the header that it is sent in. Until it expires, an
issued token that is sent names its subject.
-/

namespace TeamAccess

namespace Text

theorem trim_eq_self {p : Char → Bool} {text : List Char} (h : ∀ c ∈ text, p c = false) :
    trim p text = text := by
  have whole {text : List Char} (h : ∀ c ∈ text, p c = false) : text.dropWhile p = text := by
    cases text with
    | nil => rfl
    | cons c rest => simp [h c (by simp)]
  rw [trim, whole h, whole fun c hc => h c (List.mem_reverse.mp hc), List.reverse_reverse]

theorem Base64Url.isBlank_of_mem_encode {c : Char} {bytes : List UInt8} (hc : c ∈ encode bytes) :
    isBlank c = false := by
  have digits : ∀ n, n < 64 → isBlank (digitChar n) = false := by decide +kernel
  rw [encode_eq] at hc
  obtain ⟨n, hn, rfl⟩ := List.mem_map.mp hc
  exact digits n (lt_of_mem_sextets n hn)

end Text

namespace Token

variable {cfg : Config} {subject token : String} {kind : UserKind} {now ttl : Int}

theorem bounds_of_issued (hi : issue cfg subject (.user kind) now ttl = .ok token) :
    (ttl.fdiv day).natAbs ≤ 999999999 ∧ isDate (now + ttl) = true := by
  simp only [issue] at hi
  split at hi
  · cases hi
  · split at hi
    · cases hi
    · rename_i hl hd
      exact ⟨Nat.not_lt.mp hl, by simpa using hd⟩

theorem isBlank_of_issued (hu : cfg.Usable)
    (hi : issue cfg subject (.user kind) now ttl = .ok token)
    {c : Char} (hc : c ∈ token.toList) : Text.isBlank c = false := by
  obtain ⟨hash, ha⟩ := hu.hmac
  obtain ⟨hl, hd⟩ := bounds_of_issued hi
  simp only [issue, if_neg (Nat.not_lt.mpr hl), hd, Bool.not_true, Bool.false_eq_true, if_false,
    signClaims_eq ha (hu.checkKey ha)] at hi
  obtain rfl := Except.ok.inj hi
  simp only [String.toList_ofList, segmentsOf, Segments.signed, segment, List.mem_append,
    List.mem_cons] at hc
  rcases hc with (hc | rfl | hc) | rfl | hc
  · exact Text.Base64Url.isBlank_of_mem_encode hc
  · decide
  · exact Text.Base64Url.isBlank_of_mem_encode hc
  · decide
  · exact Text.Base64Url.isBlank_of_mem_encode hc

end Token

namespace Http

variable {request : Request} {token : String}

theorem Request.bearer?_of_header (hh : request.header? "authorization" = some ("Bearer " ++ token))
    (ht : ∀ c ∈ token.toList, Text.isBlank c = false) : request.bearer? = some token := by
  have cut : Text.splitFirst? ' ' ("Bearer " ++ token).toList =
      some ("Bearer".toList, token.toList) :=
    Text.splitFirst?_eq_some_iff.mpr ⟨by simp, by decide⟩
  have scheme : "Bearer".toList.map Char.toLower = "bearer".toList := by decide
  rw [bearer?, hh]
  change (Text.splitFirst? ' ' ("Bearer " ++ token).toList >>= _) = _
  rw [cut]
  refine (if_pos (e := none) scheme).trans ?_
  rw [Text.trim_eq_self ht, String.ofList_toList]

/-- An issued token names its subject from the second it was issued in until the second it expires
in. -/
theorem Gate.names_of_issued {settings : Settings} (hu : settings.tokenConfig.Usable)
    (ha : settings.tokenConfig.audience ≠ "") {subject : String} {kind : UserKind} {now ttl : Int}
    (hi : Token.issue settings.tokenConfig subject (.user kind) now ttl = .ok token)
    (hn : subject ≠ "") (hh : request.header? "authorization" = some ("Bearer " ++ token))
    (hk : request.apiKey? = none)
    (ht : Token.wholeSeconds now * Token.second ≤ request.now ∧
      request.now < Token.wholeSeconds (now + ttl) * Token.second) :
    Names settings request ⟨.user kind, subject⟩ := by
  have sent := request.bearer?_of_header hh fun c hc => Token.isBlank_of_issued hu hi hc
  obtain ⟨hl, hd⟩ := Token.bounds_of_issued hi
  obtain ⟨token', hi', signed⟩ := @Token.issue_signed _ subject kind now ttl hu hl hd
  cases hi.symm.trans hi'
  have accepted := (Token.verify_signed hu signed rfl request.now).1
    ((Token.current_claims_iff ha).mpr ht)
  exact .token (.inl hk) sent accepted rfl hn rfl

end Http

end TeamAccess
