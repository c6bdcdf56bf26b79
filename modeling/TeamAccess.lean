import TeamAccess.Main
import TeamAccess.Proofs.Authorization.Listing
import TeamAccess.Proofs.Http.Addressable
import TeamAccess.Proofs.Http.Creation
import TeamAccess.Proofs.Http.Precedence
import TeamAccess.Proofs.Http.Refusal
import TeamAccess.Proofs.Http.Renewal
import TeamAccess.Proofs.Http.Unguarded
import TeamAccess.Proofs.Integrity
import TeamAccess.Proofs.Log.Line
import TeamAccess.Proofs.MaskRuns
import TeamAccess.Proofs.Migration.Connection
import TeamAccess.Proofs.Migration.Target
import TeamAccess.Proofs.Registry.Grants
import TeamAccess.Proofs.Script.Abandonment
import TeamAccess.Proofs.Script.Authority
import TeamAccess.Proofs.Script.History
import TeamAccess.Proofs.Script.Independence
import TeamAccess.Proofs.Script.Sharing
import TeamAccess.Proofs.Service.Bootstrap
import TeamAccess.Proofs.Service.EdgeChanges
import TeamAccess.Proofs.Service.GroupMapping
import TeamAccess.Proofs.Service.SingleEdge
import TeamAccess.Proofs.Settings.Display
import TeamAccess.Proofs.Token.Acceptance
