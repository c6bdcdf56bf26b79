import TeamAccess.Http.Route
import TeamAccess.Proofs.Text.Hex
import TeamAccess.Proofs.Text.Percent
import TeamAccess.Proofs.Text.Split
import TeamAccess.Uuid

/-! # Texts in a path

A path is decoded before it is cut into segments. A target that carries texts as its segments, each
of them encoded, therefore leads to the path of these texts, and the segments of that path are the
texts if none of them holds a slash. A text that holds one falls into several segments, and a path
of more segments than a route has does not fit it.
-/

namespace TeamAccess

/-! ## Identifiers -/

namespace Uuid

variable {u : Uuid} {cs : List Char}

theorem slash_not_mem_of_ofDigits? (h : ofDigits? cs = some u) : '/' ∉ cs := by
  unfold ofDigits? at h
  split at h
  · obtain ⟨n, hn, -⟩ := Option.map_eq_some_iff.mp h
    exact fun hm => Text.Hex.digit?_of_readFrom hn '/' hm rfl
  · cases h

theorem slash_not_mem_of_ofGroups? (h : ofGroups? cs = some u) : '/' ∉ cs := by
  unfold ofGroups? at h
  split at h
  · rename_i dashes
    simp only [Bool.and_eq_true, decide_eq_true_eq, beq_iff_eq] at dashes
    obtain ⟨⟨⟨⟨-, h₈⟩, h₁₃⟩, h₁₈⟩, h₂₃⟩ := dashes
    have plain := slash_not_mem_of_ofDigits? h
    simp only [List.mem_append, not_or] at plain
    -- each group is followed by a dash, the last one apart
    have cut {cs : List Char} {n : Nat} (hd : cs[n]? = some '-') (hb : '/' ∉ cs.take n)
        (ha : '/' ∉ cs.drop (n + 1)) : '/' ∉ cs := by
      rw [← List.take_append_drop n cs, List.drop_eq_getElem?_toList_append, hd]
      simp [hb, ha]
    obtain ⟨⟨⟨⟨g₁, g₂⟩, g₃⟩, g₄⟩, g₅⟩ := plain
    have from₁₉ : '/' ∉ cs.drop 19 := @cut _ 4 (by simpa using h₂₃) g₄ (by simpa using g₅)
    have from₁₄ : '/' ∉ cs.drop 14 := @cut _ 4 (by simpa using h₁₈) g₃ (by simpa using from₁₉)
    have from₉ : '/' ∉ cs.drop 9 := @cut _ 4 (by simpa using h₁₃) g₂ (by simpa using from₁₄)
    exact cut h₈ g₁ from₉
  · cases h

theorem slash_mem_unwrap (h : '/' ∈ cs) : '/' ∈ unwrap cs := by
  unfold unwrap
  split
  · rename_i rest
    split
    · rename_i closed
      have last : rest.getLast? = some '\x7d' := by simpa using (Bool.and_eq_true_iff.mp closed).2
      obtain ⟨inner, rfl⟩ := List.getLast?_eq_some_iff.mp last
      simpa using h
    · exact h
  · simpa using h
  · exact h

/-- What spells an identifier is one segment. -/
theorem slash_not_mem_of_parse? {s : String} (h : parse? s = some u) : '/' ∉ s.toList := by
  unfold parse? at h
  split at h
  · exact slash_not_mem_of_ofDigits? h
  · exact mt slash_mem_unwrap (slash_not_mem_of_ofGroups? h)

theorem ne_empty_of_parse? {s : String} (h : parse? s = some u) : s ≠ "" := by
  rintro rfl
  cases h

end Uuid

namespace Http

open Text

/-! ## Targets -/

namespace Request

variable {request : Request} {texts : List String}

/-- The target of a request carries texts as its segments, each of them encoded by itself, perhaps
with a query behind them. -/
def Addresses (request : Request) (texts : List String) : Prop :=
  ∃ raws query, request.target.toList = joined '/' raws ++ query ∧
    (∀ c ∈ query.head?, c = '?') ∧ (∀ raw ∈ raws, '/' ∉ raw ∧ '?' ∉ raw) ∧
    raws.map Percent.decode = texts.map String.toList

/-- Every list of texts can be addressed: each text is percent-encoded as one segment. -/
theorem addresses_encode {query : List Char} (hq : ∀ c ∈ query.head?, c = '?')
    (h : request.target.toList =
      joined '/' (texts.map fun text => Percent.encode [] text.toList) ++ query) :
    request.Addresses texts := by
  refine ⟨_, query, h, hq, ?_, ?_⟩
  · intro raw hr
    obtain ⟨text, -, rfl⟩ := List.mem_map.mp hr
    exact ⟨Percent.not_mem_encode (by decide) (by decide) (by decide) _,
      Percent.not_mem_encode (by decide) (by decide) (by decide) _⟩
  · rw [List.map_map]
    exact List.map_congr_left fun text _ => Percent.decode_encode (by decide) _

theorem decode_append_joined (raw : List Char) (raws : List (List Char)) :
    Percent.decode (raw ++ joined '/' raws) =
      Percent.decode raw ++ joined '/' (raws.map Percent.decode) := by
  induction raws generalizing raw with
  | nil => simp [joined]
  | cons next raws ih =>
    have cut : raw ++ joined '/' (next :: raws) = raw ++ '/' :: (next ++ joined '/' raws) := by
      simp [joined]
    rw [cut, Percent.decode_slash, ih]
    simp [joined]

/-- The path of a request whose target carries texts is made up of them. -/
theorem Addresses.path (h : request.Addresses texts) :
    request.path = joined '/' (texts.map String.toList) := by
  obtain ⟨raws, query, target, behind, plain, read⟩ := h
  have before : ∀ c ∈ joined '/' raws, (c != '?') = true := by
    intro c hc
    obtain ⟨raw, hraw, hc⟩ := List.mem_flatMap.mp hc
    rw [bne_iff_ne]
    rintro rfl
    rcases List.mem_cons.mp hc with he | hc
    · exact absurd he (by decide)
    · exact (plain raw hraw).2 hc
  have after : query.takeWhile (· != '?') = [] := by
    cases query with
    | nil => rfl
    | cons c query => simp [behind c rfl]
  rw [Request.path, target, List.takeWhile_append_of_pos before, after, List.append_nil, ← read]
  exact decode_append_joined [] raws

end Request

/-! ## Routes -/

namespace Route

variable {parts : List Part} {segments : List (List Char)} {parameters : Parameters}
  {texts : List (List Char)} {method : String}

theorem length_of_matchParts (h : matchParts parts segments = some parameters) :
    parts.length = segments.length := by
  fun_induction matchParts parts segments generalizing parameters with
  | case1 | case2 => rfl
  | case4 _ _ _ _ ih => exact congrArg (· + 1) (ih h)
  | case7 _ _ _ _ _ ih =>
    obtain ⟨_, hr, -⟩ := Option.map_eq_some_iff.mp h
    exact congrArg (· + 1) (ih hr)
  | case3 | case5 | case6 | case8 => cases h

theorem matchParts_eq_none_of_length (h : parts.length < segments.length) :
    matchParts parts segments = none := by
  cases hm : matchParts parts segments with
  | none => rfl
  | some parameters => exact absurd (length_of_matchParts hm) (Nat.ne_of_lt h)

/-- The path that is made up of texts is cut at the slashes in them as well. -/
theorem matching?_joined (method : String) (texts : List (List Char)) :
    matching? method (joined '/' texts) = all.findSome? fun r =>
      if r.method = method then
        (matchParts r.parts (texts.flatMap (splitAll '/'))).map (r.endpoint, ·)
      else none := by
  simp only [matching?, fits?, splitAll_joined]

theorem matching?_joined_eq_none
    (h : ∀ r ∈ all, r.method = method → matchParts r.parts (texts.flatMap (splitAll '/')) = none) :
    matching? method (joined '/' texts) = none := by
  rw [matching?_joined, List.findSome?_eq_none_iff]
  intro r hr
  split
  · rename_i hm
    rw [h r hr hm]
    rfl
  · rfl

end Route

end Http

end TeamAccess
