import TeamAccess.Proofs.Local
import TeamAccess.Proofs.Registry.Reads
import TeamAccess.Registry.Groups
import TeamAccess.Registry.Permissions
import TeamAccess.Registry.Principals

/-! # The registry works on the draft

No operation of the registry commits anything or looks at what is committed.
-/

namespace TeamAccess

open TeamAccess.Action

namespace Teams

theorem create_local (name : String) : Local (create name) :=
  (Local.attempt _).bind fun _ => (Local.change _ _).bind fun _ => .pure _

theorem get?_local (id : Uuid) : Local (get? id) := .of_reads fun _ => get?_reads id

theorem find?_local (name : String) : Local (find? name) := .of_reads fun _ => find?_reads name

theorem rename_local (id : Uuid) (name : String) : Local (rename id name) := by
  refine (Local.attempt _).bind fun _ => (Local.query _ _).bind fun team => ?_
  refine (Local.of_reads fun _ => loaded_reads team).bind fun found => ?_
  cases found with
  | none => exact .pure _
  | some record => exact (Local.change _ _).bind fun _ => .pure _

theorem store_local (team : TeamHandle) : Local (Teams.store team) := by
  unfold Teams.store
  split
  · exact .pure _
  · exact .change _ _
  · exact .change _ _

end Teams

namespace Permissions

theorem create_local (name : String) (description : Option String) :
    Local (create name description) :=
  (Local.attempt _).bind fun _ => .change _ _

theorem find?_local (name : String) : Local (find? name) := .of_reads fun _ => find?_reads name

theorem grantToTeam_local (team : TeamHandle) (permission : Permission) :
    Local (grantToTeam team permission) := by
  refine (Local.attempt _).bind fun _ => ?_
  split
  · refine (Local.ask _).bind fun held => ?_
    split
    · exact .pure _
    · exact (Local.update _ _).bind fun _ => .pure _
  · exact .pure _

theorem revokeFromTeam_local (team : TeamHandle) (permission : Permission) :
    Local (revokeFromTeam team permission) := by
  refine (Local.attempt _).bind fun _ => ?_
  split
  · refine (Local.ask _).bind fun held => ?_
    split
    · exact .pure _
    · exact (Local.update _ _).bind fun _ => .pure _
  · exact .pure _

theorem grantToUser_local (user : PrincipalHandle) (permission : Permission) :
    Local (grantToUser user permission) := by
  refine (Local.attempt _).bind fun _ => ?_
  split
  · exact .throw _
  · split
    · refine (Local.ask _).bind fun held => ?_
      split
      · exact .pure _
      · exact (Local.update _ _).bind fun _ => .pure _
    · exact .pure _

end Permissions

namespace Groups

theorem create_local (name : String) : Local (create name) :=
  (Local.attempt _).bind fun _ => .change _ _

theorem mappedTeam_local (source : GroupSource) (team : TeamHandle) :
    Local (mappedTeam source team) := .of_finds fun _ => mappedTeam_finds source team

theorem mapLdap_local (team : TeamHandle) (dn : String) : Local (mapLdap team dn) :=
  (Local.attempt _).bind fun _ => (Local.require _).bind fun _ =>
    (mappedTeam_local _ _).bind fun _ => (Local.ask _).bind fun _ =>
      (Local.update _ _).bind fun _ => .pure _

theorem mapOidc_local (team : TeamHandle) (group : OidcGroup) : Local (mapOidc team group) :=
  (Local.attempt _).bind fun _ => (Local.require _).bind fun _ =>
    (mappedTeam_local _ _).bind fun _ => (Local.ask _).bind fun _ =>
      (Local.update _ _).bind fun _ => .pure _

theorem unmapLdap_local (team : TeamHandle) (dn : String) : Local (unmapLdap team dn) := by
  refine (Local.attempt _).bind fun _ => (Local.require _).bind fun _ => ?_
  split
  · exact .pure _
  · exact (Local.ask _).bind fun _ => (Local.update _ _).bind fun _ => .pure _

theorem unmapOidc_local (team : TeamHandle) (group : OidcGroup) :
    Local (unmapOidc team group) := by
  refine (Local.attempt _).bind fun _ => (Local.require _).bind fun _ => ?_
  split
  · exact .pure _
  · exact (Local.ask _).bind fun _ => (Local.update _ _).bind fun _ => .pure _

theorem dnsForTeam_local (team : TeamHandle) : Local (dnsForTeam team) :=
  .of_reads fun _ => dnsForTeam_reads team

theorem namesForTeam_local (team : TeamHandle) : Local (namesForTeam team) :=
  .of_reads fun _ => namesForTeam_reads team

end Groups

namespace Principals

theorem createUser_local (username : String) (profile : Profile) :
    Local (createUser username profile) :=
  (Local.attempt _).bind fun _ => (Local.change _ _).bind fun _ => .pure _

theorem findUser?_local (k : UserKind) (username : String) :
    Local (findUser? (.user k) username) := .of_reads fun _ => ⟨_, findUser?_traces k username⟩

theorem createApiKey_local (key : String) (teams : List Team) : Local (createApiKey key teams) :=
  (Local.attempt _).bind fun _ => (Local.require _).bind fun _ =>
    (Local.change _ _).bind fun _ => .pure _

theorem reload_local (principal : PrincipalHandle) : Local (reload principal) :=
  .of_finds fun _ => reload_finds principal

theorem lock_local (principal : PrincipalHandle) : Local (lock principal) :=
  .of_finds fun _ => lock_finds principal

theorem regenerateApiKey_local (principal : PrincipalHandle) (key : String) :
    Local (regenerateApiKey principal key) := by
  refine (Local.attempt _).bind fun _ => (lock_local principal).bind fun record => ?_
  cases record with
  | user r => exact .throw _
  | apiKey r => exact (Local.change _ _).bind fun _ => .pure _

theorem addToTeam_local (principal : PrincipalHandle) (team : TeamHandle) :
    Local (addToTeam principal team) := by
  refine (Local.attempt _).bind fun _ => (lock_local principal).bind fun record => ?_
  refine (Local.of_finds fun _ => target_finds team).bind fun team => ?_
  split
  · exact .pure _
  · exact (Local.update _ _).bind fun _ => .pure _

theorem removeFromTeam_local (principal : PrincipalHandle) (team : TeamHandle) :
    Local (removeFromTeam principal team) := by
  refine (Local.attempt _).bind fun _ => (lock_local principal).bind fun record => ?_
  split
  · exact .pure _
  · split
    · exact .pure _
    · exact (Local.update _ _).bind fun _ => .pure _

end Principals

end TeamAccess
