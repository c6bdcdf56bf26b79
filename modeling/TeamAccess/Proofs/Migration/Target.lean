import Mathlib.Tactic.ByContra
import TeamAccess.Migration.Target
import TeamAccess.Proofs.Settings.Load

/-! # The database of a migration

The settings compare the names of variables without regard to case, and the last variable of a name
counts. A migration looks for its variable by the exact name first. Both find the same database
unless the exactly spelled variable is followed by one of another spelling that has another value.
-/

namespace TeamAccess.Migration

variable {env : List (String × String)}

/-- The last variable whose name satisfies a condition. -/
def LastOf (env : List (String × String)) (P : String → Prop) (v : String × String) : Prop :=
  ∃ before after, env = before ++ v :: after ∧ P v.1 ∧ ∀ w ∈ after, ¬ P w.1

/-- A name is that of the database URL but for the case of its letters. -/
def SpellsUrl (name : String) : Prop :=
  name.map Char.toLower = Settings.variablePrefix ++ "database_url"

instance (name : String) : Decidable (SpellsUrl name) :=
  inferInstanceAs (Decidable (name.map Char.toLower = _))

/-- The exactly spelled variable is not empty, and the last variable of its name, of another
spelling, has another value. -/
def Overridden (env : List (String × String)) : Prop :=
  ∃ url other, LastOf env (· = urlVariable) (urlVariable, url) ∧ LastOf env SpellsUrl other ∧
    url ≠ "" ∧ other.1 ≠ urlVariable ∧ other.2 ≠ url

section Last

variable {P Q : String → Prop} [DecidablePred P] {v w : String × String}

theorem find?_reverse_eq_some_iff :
    (env.reverse.find? fun v => decide (P v.1)) = some v ↔ LastOf env P v := by
  rw [List.find?_eq_some_iff_append]
  constructor
  · rintro ⟨hv, after, before, he, hn⟩
    refine ⟨before.reverse, after.reverse, ?_, of_decide_eq_true hv, fun w hw => ?_⟩
    · rw [← List.reverse_reverse env, he]
      simp
    · simpa using hn w (List.mem_reverse.mp hw)
  · rintro ⟨before, after, rfl, hv, hn⟩
    refine ⟨decide_eq_true hv, after.reverse, before.reverse, by simp, fun w hw => ?_⟩
    simpa using hn w (List.mem_reverse.mp hw)

theorem LastOf.unique (h : LastOf env P v) (h' : LastOf env P w) : v = w :=
  Option.some.inj ((find?_reverse_eq_some_iff.mpr h).symm.trans (find?_reverse_eq_some_iff.mpr h'))

theorem exists_last (h : ∃ v ∈ env, P v.1) : ∃ v, LastOf env P v := by
  obtain ⟨v, hv, hp⟩ := h
  have found : (env.reverse.find? fun v => decide (P v.1)).isSome :=
    List.find?_isSome.mpr ⟨v, List.mem_reverse.mpr hv, decide_eq_true hp⟩
  obtain ⟨w, hw⟩ := Option.isSome_iff_exists.mp found
  exact ⟨w, find?_reverse_eq_some_iff.mp hw⟩

omit [DecidablePred P] in
/-- The last variable of a condition that satisfies a stronger one is the last of that, too. -/
theorem LastOf.of_imp (h : LastOf env P v) (hq : ∀ name, Q name → P name) (hv : Q v.1) :
    LastOf env Q v := by
  obtain ⟨before, after, he, -, hn⟩ := h
  exact ⟨before, after, he, hv, fun w hw hqw => hn w hw (hq w.1 hqw)⟩

end Last

theorem spellsUrl_urlVariable : SpellsUrl urlVariable := by decide +kernel

theorem fromEnvironment?_databaseUrl :
    Settings.fromEnvironment? env "database_url" =
      (env.reverse.find? fun v => decide (SpellsUrl v.1)).map (·.2) := rfl

theorem rawUrl_of_exact {url : String} (h : LastOf env (· = urlVariable) (urlVariable, url))
    (hne : url ≠ "") : rawUrl env = .ok url := by
  have filled : (url != "") = true := by simpa using hne
  rw [rawUrl, find?_reverse_eq_some_iff.mpr h, Option.map_some, Option.filter_some, if_pos filled]

theorem rawUrl_of_settings {settings : Settings} (h : Settings.load env [] = .ok settings)
    (hne : ∀ url, LastOf env (· = urlVariable) (urlVariable, url) → url = "") :
    rawUrl env = .ok settings.databaseUrl := by
  have blank : ((env.reverse.find? (·.1 = urlVariable)).map (·.2)).filter (· != "") = none := by
    cases hf : env.reverse.find? (·.1 = urlVariable) with
    | none => rfl
    | some v =>
      have last := find?_reverse_eq_some_iff (P := (· = urlVariable)).mp hf
      obtain ⟨name, url⟩ := v
      obtain rfl : name = urlVariable := by
        obtain ⟨-, -, -, hn, -⟩ := last
        exact hn
      simp [hne url last]
  rw [rawUrl, blank, h]
  rfl

/-- A migration takes the value of the exactly spelled variable if it is not empty. If the settings
are valid, it starts from the database URL of the settings, unless that variable is overridden by
another spelling. -/
theorem rawUrl_eq_settings_iff {settings : Settings} (h : Settings.load env [] = .ok settings) :
    ∃ url, rawUrl env = .ok url ∧ (url = settings.databaseUrl ↔ ¬ Overridden env) ∧
      ∀ value, LastOf env (· = urlVariable) (urlVariable, value) → value ≠ "" → url = value := by
  by_cases he : ∃ url, LastOf env (· = urlVariable) (urlVariable, url) ∧ url ≠ ""
  · obtain ⟨url, last, hne⟩ := he
    have named : (urlVariable, url) ∈ env := by
      obtain ⟨before, after, rfl, -⟩ := last
      simp
    obtain ⟨other, lastSpelled⟩ := exists_last ⟨_, named, spellsUrl_urlVariable⟩
    have loaded : settings.databaseUrl = other.2 := by
      rw [Settings.load_databaseUrl h, fromEnvironment?_databaseUrl,
        find?_reverse_eq_some_iff.mpr lastSpelled]
      rfl
    refine ⟨url, rawUrl_of_exact last hne, ?_, fun value last' _ => ?_⟩
    · rw [loaded]
      constructor
      · rintro rfl ⟨url', other', last', lastSpelled', -, -, hv⟩
        cases last.unique last'
        cases lastSpelled.unique lastSpelled'
        exact hv rfl
      · intro hno
        by_contra hv
        refine hno ⟨url, other, last, lastSpelled, hne, fun hn => hv ?_, Ne.symm hv⟩
        have same := lastSpelled.of_imp (Q := (· = urlVariable))
          (fun name hq => hq ▸ spellsUrl_urlVariable) hn
        exact congrArg Prod.snd (last.unique same)
    · exact congrArg Prod.snd (last.unique last')
  · have blank : ∀ url, LastOf env (· = urlVariable) (urlVariable, url) → url = "" := by
      intro url last
      by_contra hne
      exact he ⟨url, last, hne⟩
    refine ⟨_, rawUrl_of_settings h blank, ?_, fun value last hne => absurd (blank value last) hne⟩
    refine iff_of_true rfl ?_
    rintro ⟨url, -, last, -, hne, -⟩
    exact hne (blank url last)

/-- An environment with two spellings of the variable, the exact one first. -/
def twoSpellings : List (String × String) :=
  [(urlVariable, "sqlite:///a.db"), ("team_authz_database_url", "sqlite:///b.db")]

/-- If the exact spelling comes last, the settings and the migration take the same URL. -/
theorem rawUrl_eq_settings_iff_exactLast :
    ∃ settings, Settings.load twoSpellings.reverse [] = .ok settings ∧
      rawUrl twoSpellings.reverse = .ok settings.databaseUrl := by
  have valid : (Settings.load twoSpellings.reverse []).toOption =
      some { databaseUrl := "sqlite:///a.db" } := by decide +kernel
  have last : LastOf twoSpellings.reverse SpellsUrl (urlVariable, "sqlite:///a.db") :=
    ⟨[_], [], rfl, spellsUrl_urlVariable, nofun⟩
  cases hl : Settings.load twoSpellings.reverse [] with
  | error complaints => simp [hl, Except.toOption] at valid
  | ok settings =>
    obtain ⟨url, hr, same, -⟩ := rawUrl_eq_settings_iff hl
    refine ⟨settings, rfl, ?_⟩
    rw [hr, same.mpr]
    rintro ⟨-, other, -, lastSpelled, -, hn, -⟩
    exact hn (congrArg Prod.fst (lastSpelled.unique last))

/-- If another spelling comes last, the settings take its value and the migration does not. -/
theorem rawUrl_ne_settings :
    ∃ settings, Settings.load twoSpellings [] = .ok settings ∧ settings.databaseUrl ≠ "" ∧
      rawUrl twoSpellings ≠ .ok settings.databaseUrl := by
  have valid : (Settings.load twoSpellings []).toOption =
      some { databaseUrl := "sqlite:///b.db" } := by decide +kernel
  have started : (rawUrl twoSpellings).toOption = some "sqlite:///a.db" := by decide +kernel
  cases hl : Settings.load twoSpellings [] with
  | error complaints => simp [hl, Except.toOption] at valid
  | ok settings =>
    obtain rfl : settings = { databaseUrl := "sqlite:///b.db" } := by
      simpa [hl, Except.toOption] using valid
    refine ⟨_, rfl, by decide, fun hr => ?_⟩
    simp [hr, Except.toOption] at started

end TeamAccess.Migration
