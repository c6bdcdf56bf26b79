import TeamAccess.Proofs.Json.RoundTrip
import TeamAccess.Proofs.Text.Base64Url
import TeamAccess.Proofs.Token.Signed

/-! # Issued tokens

What is issued is signed and spells the claims that were put into it, whatever characters they hold.
The claims are current from the second of the issue until the second they expire in.
-/

namespace TeamAccess.Token

variable {cfg : Config} {subject : String} {payload : Members} {kind : UserKind}
  {now ttl time : Int}

theorem decode?_segment (j : Json) :
    Text.Base64Url.decode? (segment j) = some (Text.Utf8.encode (j.print .compact)) :=
  Text.Base64Url.decode?_encode _

theorem dot_not_mem_encode (bytes : List UInt8) : '.' ∉ Text.Base64Url.encode bytes :=
  Text.Base64Url.not_mem_encode (by decide) bytes

/-- A segment spells the object that was put into it. -/
theorem spells_segment (h : Json.Readable (.obj payload)) :
    Spells (segment (.obj payload)) payload :=
  ⟨_, decode?_segment _, Json.parseBytes_print h .compact⟩

/-- The segments of a token that carries the given claims, signed with an algorithm. -/
def segmentsOf (cfg : Config) (a : Algorithm) (payload : Members) : Segments where
  header := segment (header cfg.algorithm)
  payload := segment (.obj payload)
  signature := Text.Base64Url.encode (sign a cfg.secret (signingInput cfg.algorithm payload))

theorem cut_segmentsOf (cfg : Config) (a : Algorithm) (payload : Members) :
    (segmentsOf cfg a payload).Cut (String.ofList ((segmentsOf cfg a payload).signed ++
      '.' :: (segmentsOf cfg a payload).signature)) :=
  ⟨String.toList_ofList, dot_not_mem_encode _, dot_not_mem_encode _⟩

theorem signClaims_eq {a : Algorithm} (ha : Algorithm.ofName? cfg.algorithm = some a)
    (hk : checkKey a cfg.secret = .ok ()) (payload : Members) :
    signClaims cfg payload = .ok (String.ofList ((segmentsOf cfg a payload).signed ++
      '.' :: (segmentsOf cfg a payload).signature)) := by
  unfold signClaims algorithmOf
  rw [ha]
  change ((checkKey a cfg.secret).mapError IssueError.key >>= _) = _
  rw [hk]
  rfl

/-- With a usable key every object that can be read back is signed. -/
theorem signClaims_signed (hu : cfg.Usable) (hr : Json.Readable (.obj payload)) :
    ∃ token, signClaims cfg payload = .ok token ∧
      Signed cfg token [("alg", .str cfg.algorithm), ("typ", .str "JWT")] payload := by
  obtain ⟨hash, ha⟩ := hu.hmac
  have readable : Json.Readable (header cfg.algorithm) :=
    .obj (by simp) (by simp [Json.Readable.str])
  exact ⟨_, signClaims_eq ha (hu.checkKey ha) payload, .intro (cut_segmentsOf cfg _ payload)
    (spells_segment readable) rfl ha (Text.Base64Url.decode?_encode _) (spells_segment hr)⟩

/-- The claims of an issued token are current from the second it is issued in until the second it
expires in. -/
theorem current_claims_iff (ha : cfg.audience ≠ "") :
    Current cfg time (claims cfg subject kind now ttl) ↔
      wholeSeconds now * second ≤ time ∧ time < wholeSeconds (now + ttl) * second := by
  constructor
  · intro h
    -- looking a time up and reading it leaves its bound
    obtain ⟨_, _, hm, ht, hi⟩ := h.issued
    obtain ⟨_, _, hm', ht', he⟩ := h.unexpired
    cases hm
    cases ht
    cases hm'
    cases ht'
    exact ⟨hi, he⟩
  · rintro ⟨hi, he⟩
    refine ⟨?_, ⟨_, _, rfl, rfl, hi⟩, .inl rfl, ⟨_, _, rfl, rfl, he⟩, rfl, ⟨_, rfl, .name ha⟩,
      ⟨_, rfl⟩, .inl rfl⟩
    intro name hn
    simp only [requiredClaims, List.mem_cons, List.not_mem_nil, or_false] at hn
    rcases hn with rfl | rfl | rfl | rfl | rfl | rfl <;> exact ⟨_, rfl, nofun⟩

theorem readable_wholeSeconds {t : Int} (h : t.natAbs < 10 ^ 20) :
    Json.Readable (.int (wholeSeconds t)) := by
  have hw : (wholeSeconds t).natAbs < 10 ^ 20 := by
    rw [wholeSeconds, Int.natAbs_tdiv]
    exact Nat.lt_of_le_of_lt (Nat.div_le_self _ _) h
  have hl := (Nat.length_toDigits_le_iff (by decide : 1 < 10) (by decide : 0 < 20)).mpr hw
  exact .int (Nat.le_trans hl (by decide))

/-- The claims of a token can be read back: its times are dates or not far from one. -/
theorem readable_claims (hl : (ttl.fdiv day).natAbs ≤ 999999999)
    (hd : isDate (now + ttl) = true) :
    Json.Readable (.obj (claims cfg subject kind now ttl)) := by
  have hf : ttl.fdiv day = ttl / day := Int.fdiv_eq_ediv_of_nonneg ttl (by decide)
  simp only [isDate, Bool.and_eq_true, decide_eq_true_eq] at hd
  rw [hf] at hl
  simp only [day, second] at hl hd
  have issued : Json.Readable (.int (wholeSeconds now)) := readable_wholeSeconds (by omega)
  have expires : Json.Readable (.int (wholeSeconds (now + ttl))) :=
    readable_wholeSeconds (by omega)
  refine .obj (by simp [claims]) ?_
  simp [claims, issued, expires, Json.Readable.str]

/-- A token is issued for every subject, and it is signed. -/
theorem issue_signed (hu : cfg.Usable) (hl : (ttl.fdiv day).natAbs ≤ 999999999)
    (hd : isDate (now + ttl) = true) :
    ∃ token, issue cfg subject (.user kind) now ttl = .ok token ∧
      Signed cfg token [("alg", .str cfg.algorithm), ("typ", .str "JWT")]
        (claims cfg subject kind now ttl) := by
  obtain ⟨token, hi, hs⟩ := signClaims_signed hu (readable_claims hl hd)
  refine ⟨token, ?_, hs⟩
  rw [issue, if_neg (Nat.not_lt.mpr hl), hd]
  exact hi

end TeamAccess.Token
