import Parseable.HashMap
import Parseable.Modal
import Parseable.QuerierRegistry
import Parseable.RegistryInvariant
import Parseable.RoundRobin
import Parseable.RoundRobinFairness
import Parseable.QueryDispatch
import Parseable.QueryPlan
import Parseable.BillingMetrics
import Parseable.ClusterMetrics
import Parseable.ClusterAbout
import Parseable.Broadcast
import Parseable.QuerierExclusion
import Parseable.CountFlatten
import Parseable.Chrono
import Parseable.Utf8
import Parseable.StagingPath
import Parseable.StreamStats
import Parseable.NodeRequests
