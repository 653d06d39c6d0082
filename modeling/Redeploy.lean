import Redeploy.Simulation.Process
import Redeploy.Json.Codec
import Redeploy.Logging.Line
import Redeploy.Cluster
import Redeploy.Proofs.Teardown
import Redeploy.Proofs.Acceptance
import Redeploy.Proofs.Supersession
import Redeploy.Proofs.Eviction
import Redeploy.Proofs.Orphans
import Redeploy.Proofs.Versions
import Redeploy.Proofs.Sink
import Redeploy.Proofs.Numbers
import Redeploy.Proofs.Isolation
import Redeploy.Proofs.Materialisation
import Redeploy.Proofs.Reentrance
import Redeploy.Proofs.Shutdown
import Redeploy.Proofs.Departure
import Redeploy.Proofs.Removal
import Redeploy.Proofs.Drain
import Redeploy.Proofs.Expiry
import Redeploy.Proofs.Attempt
import Redeploy.Proofs.Sharing
import Redeploy.Proofs.Completion
import Redeploy.Proofs.Enumeration
import Redeploy.Proofs.Mirror
import Redeploy.Proofs.Epochs
import Redeploy.Proofs.JsonText
import Redeploy.Proofs.JsonTypes
import Redeploy.Proofs.Heartbeat
import Redeploy.Proofs.OwnEpoch
import Redeploy.Proofs.Directives
import Redeploy.Proofs.Validation
import Redeploy.Proofs.Decimals
import Redeploy.Proofs.Environment
import Redeploy.Proofs.Precedence
import Redeploy.Proofs.Reports
import Redeploy.Proofs.Delivery
