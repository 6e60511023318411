import Tunnet.Direct.Spec.Untrusted
import Tunnet.Direct.Spec.Kick
import Tunnet.Direct.Spec.Readmission
import Tunnet.Direct.Spec.Sticky
import Tunnet.Direct.Spec.Addresses
import Tunnet.Direct.Spec.Approval
import Tunnet.Direct.Spec.FailedWrite
import Tunnet.Direct.Spec.OneTime
import Tunnet.Direct.Spec.Projection
import Tunnet.Direct.PolicyDocs
import Tunnet.Pool.Spec.Authorized
import Tunnet.Pool.Spec.Buffer
import Tunnet.Agent.Spec.ExitRoutes
import Tunnet.Send.Spec.Escape
import Tunnet.Send.Spec.Terminal
import Tunnet.Stream.Spec.Special
import Tunnet.Control.Spec.SshProof
import Tunnet.Management.Spec.Tags
import Tunnet.Control.Spec.Attributes
import Tunnet.Control.Spec.Reconnect
import Tunnet.Audit.Spec.TamperEvidence
import Tunnet.Audit.Spec.Retention
import Tunnet.Licensing.Spec.Revocation
import Tunnet.Secrets.Spec.Kept
import Tunnet.Update.Spec.HealthWindow
import Tunnet.Operator.Spec.Exclusion
import Tunnet.Agent.Spec.Recordings
import Tunnet.Agent.Qos
import Tunnet.Policy.Spec.Phases
import Tunnet.Policy.Ssh
import Tunnet.Engine.Document
import Tunnet.Direct.Spec.Reload
import Tunnet.Direct.Spec.Agreement
import Tunnet.Acl.Spec.Fragments
import Tunnet.Routing.Spec.Lookup
import Tunnet.Sync.Spec.Revisions
import Tunnet.Agent.Identity
import Tunnet.Edge.Spec.Metering
import Tunnet.Edge.Spec.FirstRead
