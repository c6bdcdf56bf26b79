import TeamAccess.Service.Evaluation

/-! # Decisions

A caller is allowed if it holds one of the required permissions. A caller that is unknown, or about
whom the store cannot answer, is denied; every denial is recorded with its reason.
-/

namespace TeamAccess

/-- Whether a caller may proceed. -/
inductive Decision where
  | allow
  | deny
  deriving DecidableEq, Repr

/-- The text of a decision. -/
def Decision.text : Decision → String
  | .allow => "ALLOW"
  | .deny => "DENY"

namespace Decision

open TeamAccess.Action

/-- Whether some item passes a test; the items after the first that does are not tried. -/
def firstPassing (test : String → Action Bool) : List String → Action Bool
  | [] => return false
  | name :: rest => do
    if ← test name then return true
    firstPassing test rest

/-- Whether an API key holds one of the required permissions. -/
def keyGranted (apiKey : PrincipalHandle) (required : List String) : Action Bool :=
  firstPassing (Evaluation.keyHas apiKey) required

/-- Whether the stored user of the same partition and username holds one of the required
permissions. -/
def userGranted (user : PrincipalHandle) (required : List String) : Action Bool := do
  match ← Principals.findUser? user.kind user.name with
  | none => throw user.notFound
  | some current =>
    firstPassing (fun name => Evaluation.userHas current.user.handle name true) required

/-- Whether a principal holds one of the required permissions. -/
def granted (principal : PrincipalHandle) (required : List String) : Action Bool :=
  match principal.kind with
  | .apiKey => keyGranted principal required
  | .user _ => userGranted principal required

/-- Denies a principal for a reason. -/
def denyFor (principal : PrincipalHandle) (required : List String) (reason : DenialReason) :
    Action Decision := do
  record (.denied reason (some (principal.kind, principal.display)) required)
  return .deny

/-- The answer to a question about grants as a reason to deny, if there is one. -/
def reasonToDeny (question : Action Bool) : Action (Option DenialReason) :=
  tryCatch (do return if ← question then none else some .notGranted) fun
    | .notFound .. => return some .notFound
    | .unavailable _ => return some .unavailable
    | failure => throw failure

/-- Decides whether a principal that needs one of the required permissions may proceed. -/
def authorize (principal : Option PrincipalHandle) (required : List String) : Action Decision := do
  match principal with
  | none =>
    record (.denied .noPrincipal none required)
    return .deny
  | some p =>
    match ← reasonToDeny (guarded (granted p required)) with
    | none => return .allow
    | some reason => denyFor p required reason

end Decision

end TeamAccess
