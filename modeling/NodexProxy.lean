import NodexProxy.Foundation.Execution
import NodexProxy.Foundation.Bytes
import NodexProxy.Foundation.Checked
import NodexProxy.Foundation.Json
import NodexProxy.Foundation.RevisionStore
import NodexProxy.Foundation.Clients
import NodexProxy.Foundation.Serial
import NodexProxy.Discovery.Types
import NodexProxy.Discovery.Key
import NodexProxy.Discovery.Watch
import NodexProxy.Discovery.Convergence
import NodexProxy.Discovery.Startup
import NodexProxy.Admin.Request
import NodexProxy.Discovery.KeyRoundTrip
import NodexProxy.Admin.Handler
import NodexProxy.Admin.Atomicity
import NodexProxy.Admin.GatewayUpdates
import NodexProxy.Admin.NodeUpdates
import NodexProxy.Jsonscan.Scan
import NodexProxy.Jsonscan.Turns
import NodexProxy.Jsonscan.Automaton
import NodexProxy.Jsonscan.ClosingQuote
import NodexProxy.Jsonscan.Exact
import NodexProxy.Jsonscan.Walk
import NodexProxy.Jsonrpc.Request
import NodexProxy.Jsonrpc.Reference
import NodexProxy.Jsonrpc.Borrowed
import NodexProxy.Lb.Node
import NodexProxy.Lb.Selector
import NodexProxy.Lb.Refresh
import NodexProxy.Lb.GenerationInvariant
import NodexProxy.Lb.Removal
import NodexProxy.Lb.Intake
import NodexProxy.Lb.Chain
import NodexProxy.Lb.Pick
import NodexProxy.Lb.Serve
import NodexProxy.Lb.Stages
import NodexProxy.Lb.CacheSoundness
import NodexProxy.Foundation.Tally
import NodexProxy.Usage.Collector
import NodexProxy.Usage.Conservation
import NodexProxy.Lb.Pools
import NodexProxy.Discovery.NodeDeletes
import NodexProxy.Foundation.Trim
import NodexProxy.Lb.VersionRouter
import NodexProxy.Lb.Mirrors
import NodexProxy.Lb.MirrorLimits
import NodexProxy.Lb.GatewaySwitch
import NodexProxy.Metrics.Bound
import NodexProxy.Metrics.Transparency
import NodexProxy.Foundation.Slices
import NodexProxy.Lb.Preprocess
import NodexProxy.Lb.DenyList
import NodexProxy.Lb.MirrorCopies
import NodexProxy.Jsonrpc.ErrorKey
import NodexProxy.Lb.ErrorKeyMemo
import NodexProxy.Lb.Accounting
import NodexProxy.Lb.Trials
import NodexProxy.Lb.CurrentAttempt
import NodexProxy.Lb.SessionVisit
import NodexProxy.Foundation.Machine
import NodexProxy.Cmd.ExitWait
import NodexProxy.Lb.PickSlices
import NodexProxy.Foundation.Weighted
import NodexProxy.Lb.WeightedPick
import NodexProxy.Lb.BlockArgument
import NodexProxy.Lb.BlockDecode
import NodexProxy.Lb.LatestShape
import NodexProxy.Foundation.Stateful
import NodexProxy.Jsonscan.Related
import NodexProxy.Jsonrpc.Views
import NodexProxy.Lb.BodyRewrite
import NodexProxy.Lb.BodyVisit
import NodexProxy.Lb.InvisibleHit
import NodexProxy.Usage.FlushSignal
import NodexProxy.Foundation.Sparse
import NodexProxy.Discovery.Weights
import NodexProxy.Discovery.Routes
import NodexProxy.Lb.GatewayWeights
import NodexProxy.Admin.Content
import NodexProxy.Admin.NodeWeight
import NodexProxy.Admin.RouteEdits
import NodexProxy.Admin.Writers
import NodexProxy.Lb.VersionValue
import NodexProxy.Discovery.NodeSources
import NodexProxy.Lb.Namespaces
import NodexProxy.Jsonscan.Safety
import NodexProxy.Lb.ScanSafety
import NodexProxy.Foundation.Replica
import NodexProxy.Foundation.Journal
import NodexProxy.Foundation.Sums
import NodexProxy.Discovery.Delivery
import NodexProxy.Discovery.Heights
import NodexProxy.Lb.Background
import NodexProxy.Lb.ControlPlane
import NodexProxy.Lb.PoolContents
import NodexProxy.Lb.NodeRollout
import NodexProxy.Admin.Policy
import NodexProxy.Lb.PolicyRollout
import NodexProxy.Metrics.PostProcessor
import NodexProxy.Metrics.Balance
import NodexProxy.Metrics.ChainLabels
import NodexProxy.Metrics.Attribution
import NodexProxy.Lb.HealthCheck
import NodexProxy.Lb.ProbedPools
import NodexProxy.Admin.MirrorCalls
import NodexProxy.Lb.MirrorRollout
