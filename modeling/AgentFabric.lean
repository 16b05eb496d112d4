import AgentFabric.Store.AttemptAccounting
import AgentFabric.Autonomy.Outcomes
import AgentFabric.Runtime.LaunchOnce
import AgentFabric.Runtime.Exclusivity
import AgentFabric.Runtime.Ingestion
import AgentFabric.Store.Terminal
import AgentFabric.Runtime.MissingJobs
import AgentFabric.Runtime.Capacity
import AgentFabric.Runtime.Audits
import AgentFabric.NodeRecovery.Health
import AgentFabric.Submission.Restart
import AgentFabric.Bridge.Lossless
import AgentFabric.Autonomy.Identity
import AgentFabric.LocalWorker.Verdicts
import AgentFabric.Resource.Exhaustion
import AgentFabric.Bootstrap.OrderIndependence
import AgentFabric.Autonomy.RuntimeCollect
import AgentFabric.LocalWorker.Projection
import AgentFabric.Intake.References
import AgentFabric.Resource.Routing
import AgentFabric.Store.Verdict
import AgentFabric.LocalWorker.Rejections
import AgentFabric.LocalWorker.Observations
import AgentFabric.LocalWorker.RequestDigest
import AgentFabric.LocalWorker.TerminalReceipt
import AgentFabric.Resource.GuardPartition
import AgentFabric.Telemetry.Economics
import AgentFabric.Resource.RoutingLog
import AgentFabric.Autonomy.Collected
import AgentFabric.Store.DispatchWait
import AgentFabric.Autonomy.DecisionText
import AgentFabric.Autonomy.Steering
import AgentFabric.Native.Codex
import AgentFabric.Verifier
import AgentFabric.Bootstrap.Evidence
import AgentFabric.Api.Usage
import AgentFabric.Api.EventDelivery
import AgentFabric.Store.Integrity
