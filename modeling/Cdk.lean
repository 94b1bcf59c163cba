import Cdk.Peer.Requests
import Cdk.Approvals.Deadline
import Cdk.Agent.Gated
import Cdk.Agent.Classifier
import Cdk.Tools.Listing
import Cdk.Tools.Messages
import Cdk.Peer.Provenance
import Cdk.Console.Delegation
import Cdk.Policy.Coverage
import Cdk.Link.Channel
import Cdk.Audit.Tamper
import Cdk.Gateway.Loader
import Cdk.Gateway.Loop
import Cdk.Gateway.TrustStore
import Cdk.Scheduling.Priority
import Cdk.Boot.Verify
import Cdk.Processes.Budget
import Cdk.Processes.Percpu
import Cdk.Processes.Roots
import Cdk.Processes.Vectors
import Cdk.Processes.Wakeup
import Cdk.Memory.Reservations
import Cdk.Memory.Shootdown
import Cdk.Memory.Attachments
import Cdk.Scheduling.Progress
import Cdk.Scheduling.Depths
import Cdk.Memory.MemoryGraph
import Cdk.Memory.PageGrowth
import Cdk.Memory.Processor
import Cdk.Memory.UserCopy
