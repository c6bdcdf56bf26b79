import Mathlib.Data.List.Forall2
import TeamAccess.Log.Line
import TeamAccess.Proofs.Json.Member
import TeamAccess.Proofs.Log.Threshold

/-! # What the log prints

Every call that weighs enough is printed as one line of printable ASCII, in the order of the calls,
and the line is read back as the fields of the call over those bound to the logger over those of the
context, with the pipeline's own values in their places. Nothing else is printed. It takes a level
that is not misnamed and calls without a record.
-/

namespace TeamAccess.Log

variable {setup : Setup} {time : Json} {call : Call} {calls : List Call}
  {base later : List (String × Json)} {name : String} {value : Json}

/-- The value of a field that a call is made with: its own one, or that of the logger, or that of
the context. -/
def Setup.given? (s : Setup) (call : Call) (name : String) : Option Json :=
  (Json.member? name call.fields).or
    ((Json.member? name s.bound).or (Json.member? name s.context))

/-- The value that a line has under a name. -/
def Setup.shown? (s : Setup) (time : Json) (call : Call) (name : String) : Option Json :=
  match name with
  | "event" => some (.str call.event)
  | "level" => some (.str call.level.name)
  | "logger" => some (.str s.loggerName)
  | "timestamp" => some time
  | "service" => some ((s.given? call "service").getD (.str s.serviceName))
  | name => s.given? call name

/-- A line of printable ASCII that is read back as an object of just the members that are to be
shown, each once. -/
structure Prints (setup : Setup) (time : Json) (call : Call) (line : String) : Prop where
  printable : ∀ c ∈ line.toList, Json.Printable c
  spells : ∃ members, Json.parse line.toList = .ok (.obj members) ∧ (members.map (·.1)).Nodup ∧
    ∀ name, Json.member? name members = setup.shown? time call name

/-- The fields are members of objects that a reader takes, and so is the time. -/
structure Carried (setup : Setup) (time : Json) (calls : List Call) : Prop where
  context : Json.Readable (.obj setup.context)
  bound : Json.Readable (.obj setup.bound)
  fields : ∀ call ∈ calls, Json.Readable (.obj call.fields)
  time : Json.Readable time

/-- The call is made with no field that is taken for a record. -/
def Setup.Recordless (s : Setup) (call : Call) : Prop :=
  ∀ value, s.given? call "_record" = some value → value = .null

section Members

theorem member?_merge (hl : (later.map (·.1)).Nodup) (base : List (String × Json)) :
    Json.member? name (merge base later) =
      (Json.member? name later).or (Json.member? name base) := by
  induction later generalizing base with
  | nil => rfl
  | cons m later ih =>
    obtain ⟨hm, hr⟩ := List.nodup_cons.mp hl
    have step : merge base (m :: later) = merge (Json.setMember m.1 m.2 base) later := rfl
    rw [step, ih hr, Json.member?_setMember, Json.member?_cons]
    split
    · rename_i he
      rw [Json.member?_eq_none (he ▸ hm)]
      rfl
    · rfl

theorem readable_merge (hb : Json.Readable (.obj base)) (hl : ∀ m ∈ later, Json.Readable m.2) :
    Json.Readable (.obj (merge base later)) := by
  induction later generalizing base with
  | nil => exact hb
  | cons m later ih =>
    obtain ⟨hm, hr⟩ := List.forall_mem_cons.mp hl
    exact ih (hb.setMember hm) hr

theorem member?_setDefault (n : String) (v : Json) (members : List (String × Json)) :
    Json.member? name (setDefault n v members) =
      (Json.member? name members).or (if n = name then some v else none) := by
  unfold setDefault
  split
  · rename_i w hs
    split
    · rename_i he
      rw [← he, hs]
      rfl
    · rw [Option.or_none]
  · rw [Json.member?_append]
    rfl

theorem readable_setDefault (hb : Json.Readable (.obj base)) (hv : Json.Readable value) :
    Json.Readable (.obj (setDefault name value base)) := by
  unfold setDefault
  split
  · exact hb
  · rename_i hn
    obtain ⟨hd, hr⟩ := Json.readable_obj_iff.mp hb
    have fresh : name ∉ base.map (·.1) := Json.not_mem_of_member?_eq_none hn
    rw [← Json.setMember_of_not_mem fresh]
    exact hb.setMember hv

end Members

section Line

variable (hc : Carried setup time calls) (hm : call ∈ calls)

include hc hm

theorem member?_given (name : String) :
    Json.member? name (given setup call) = setup.given? call name := by
  obtain ⟨hb, -⟩ := Json.readable_obj_iff.mp hc.bound
  obtain ⟨hf, -⟩ := Json.readable_obj_iff.mp (hc.fields call hm)
  rw [given, member?_merge hf, member?_merge hb]
  rfl

/-- The pipeline's own values are put over what is given, and the service under it. -/
theorem member?_members (name : String) :
    Json.member? name (members setup time call) = setup.shown? time call name := by
  have own : (([("event", .str call.event), ("level", .str call.level.name),
      ("logger", .str setup.loggerName), ("timestamp", time)] : List (String × Json)).map
        (·.1)).Nodup := by
    simp
  rw [members, member?_setDefault, member?_merge own, member?_given hc hm]
  simp only [Json.member?]
  fun_cases Setup.shown? setup time call name with
  | case1 => rfl
  | case2 => rfl
  | case3 => rfl
  | case4 => rfl
  | case5 => cases setup.given? call "service" <;> rfl
  | case6 =>
    rename_i he hl hg ht hs
    rw [if_neg (Ne.symm he), if_neg (Ne.symm hl), if_neg (Ne.symm hg), if_neg (Ne.symm ht),
      if_neg (Ne.symm hs), Option.or_none]
    rfl

theorem readable_members : Json.Readable (.obj (members setup time call)) := by
  obtain ⟨-, hb⟩ := Json.readable_obj_iff.mp hc.bound
  obtain ⟨-, hf⟩ := Json.readable_obj_iff.mp (hc.fields call hm)
  refine readable_setDefault (readable_merge (readable_merge (readable_merge hc.context hb) hf) ?_)
    (.str _)
  simp only [List.forall_mem_cons]
  exact ⟨.str _, .str _, .str _, hc.time, List.forall_mem_nil _⟩

theorem line_eq_ok_iff {t : String} : line setup time call = .ok t ↔
    setup.Recordless call ∧ text setup time call = t := by
  unfold line Setup.Recordless
  rw [member?_given hc hm]
  change _ ↔ (∀ value, setup.given? call recordField = some value → _) ∧ _
  cases setup.given? call recordField with
  | none => simp
  | some value => cases value <;> simp

theorem prints_line :
    Prints setup time call (text setup time call) := by
  have hr := readable_members hc hm
  have printed : (text setup time call).toList =
      (Json.obj (members setup time call)).print .spaced := String.toList_ofList
  constructor
  · rw [printed]
    exact Json.printable_print .spaced _
  · refine ⟨members setup time call, ?_, (Json.readable_obj_iff.mp hr).1, member?_members hc hm⟩
    rw [printed, Json.parse_print hr]

end Line

/-- The calls at or above a level. -/
def atLeast (least : Nat) (calls : List Call) : List Call :=
  calls.filter fun call => least ≤ call.level.weight

theorem lines_eq_ok_iff (hc : Carried setup time calls) {least : Nat}
    (hl : Configured setup.level least) {printed : List String} :
    lines setup time calls = .ok printed ↔
      ¬ Misnamed setup.level ∧ (∀ call ∈ atLeast least calls, setup.Recordless call) ∧
        (atLeast least calls).map (text setup time) = printed := by
  have each : ∀ call ∈ atLeast least calls, ∀ t, line setup time call = .ok t ↔
      setup.Recordless call ∧ text setup time call = t :=
    fun call hm t => line_eq_ok_iff hc (List.mem_filter.mp hm).1
  simp only [lines, kept, bind_eq_ok_iff, mapError_eq_ok_iff, threshold_eq_ok_iff, pure,
    Except.pure, Except.ok.injEq]
  constructor
  · rintro ⟨_, ⟨least', ⟨hn, hl'⟩, rfl⟩, hp⟩
    obtain rfl := hl.unique hl'
    exact ⟨hn, (mapM_eq_ok_iff each).mp hp⟩
  · rintro ⟨hn, hp⟩
    exact ⟨_, ⟨least, ⟨hn, hl⟩, rfl⟩, (mapM_eq_ok_iff each).mpr hp⟩

/-- The lines correspond to the calls at or above the configured level, one to one and in order,
each a line of ASCII that spells what is to be shown, exactly if the level is not misnamed and none
of these calls bears a record. -/
theorem lines_print_iff (hc : Carried setup time calls) :
    ∃ least, Configured setup.level least ∧
      ((∃ printed, lines setup time calls = .ok printed ∧
          List.Forall₂ (Prints setup time) (atLeast least calls) printed) ↔
        ¬ Misnamed setup.level ∧ ∀ call ∈ atLeast least calls, setup.Recordless call) := by
  obtain ⟨least, hl⟩ := exists_configured setup.level
  refine ⟨least, hl, ?_⟩
  constructor
  · rintro ⟨printed, hp, -⟩
    obtain ⟨hn, hr, -⟩ := (lines_eq_ok_iff hc hl).mp hp
    exact ⟨hn, hr⟩
  · rintro ⟨hn, hr⟩
    refine ⟨_, (lines_eq_ok_iff hc hl).mpr ⟨hn, hr, rfl⟩, ?_⟩
    rw [List.forall₂_map_right_iff, List.forall₂_same]
    exact fun call hm => prints_line hc (List.mem_filter.mp hm).1

/-- A logger whose fields bear the names of the pipeline's own values. -/
def colliding : Setup where
  serviceName := "team-authz"
  level := "wArNiNg"
  logger := "team_authz.sync"
  bound := [("level", .str "debug"), ("service", .null)]
  context := [("request_id", .str "1\n2"), ("logger", .str "root")]

/-- One call below the level and one above it. -/
def collidingCalls : List Call :=
  [⟨.info, "sync_completed", []⟩,
    ⟨.error, "\u2028", [("timestamp", .int 0), ("_record", .null), ("teams", .texts ["é"])]⟩]

theorem lines_print_iff_colliding :
    Carried colliding (.str "2024-01-01T00:00:00Z") collidingCalls ∧
      ∃ printed, lines colliding (.str "2024-01-01T00:00:00Z") collidingCalls = .ok printed ∧
        List.Forall₂ (Prints colliding (.str "2024-01-01T00:00:00Z")) (collidingCalls.drop 1)
          printed := by
  have carried : Carried colliding (.str "2024-01-01T00:00:00Z") collidingCalls := by
    constructor
    · refine .obj (by decide) (List.forall_mem_cons.mpr ⟨.str _, ?_⟩)
      exact List.forall_mem_singleton.mpr (.str _)
    · refine .obj (by decide) (List.forall_mem_cons.mpr ⟨.str _, ?_⟩)
      exact List.forall_mem_singleton.mpr .null
    · refine List.forall_mem_cons.mpr ⟨.obj (by decide) nofun, List.forall_mem_singleton.mpr ?_⟩
      refine .obj (by decide) (List.forall_mem_cons.mpr ⟨.int (by decide), ?_⟩)
      refine List.forall_mem_cons.mpr ⟨.null, List.forall_mem_singleton.mpr (.arr ?_)⟩
      exact List.forall_mem_singleton.mpr (.str _)
    · exact .str _
  obtain ⟨least, hl, correspond⟩ := lines_print_iff carried
  obtain rfl : least = 30 := hl.unique (.named (by decide))
  refine ⟨carried, correspond.mpr ⟨by decide, fun call hm value hv => ?_⟩⟩
  obtain rfl := List.mem_singleton.mp hm
  exact (Option.some.inj hv).symm

/-- A level that goes by the name of a line format is refused where a text that names no level
stands for INFO. -/
theorem misnamed_refused :
    ¬ ∀ setup time calls, Carried setup time calls →
      ∃ least, Configured setup.level least ∧ ∃ printed, lines setup time calls = .ok printed ∧
        List.Forall₂ (Prints setup time) (atLeast least calls) printed := by
  intro h
  have none : Json.Readable (.obj []) := .obj .nil nofun
  obtain ⟨least, hl, printed, hp, -⟩ := h ⟨"s", "basic_format", "oracle", [], []⟩ (.bool true)
    [⟨.info, "x", []⟩] ⟨none, none, List.forall_mem_singleton.mpr none, .bool true⟩
  cases hp

end TeamAccess.Log
