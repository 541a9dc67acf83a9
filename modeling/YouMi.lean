import YouMi.Library.Runs
import YouMi.Library.RowTable
import YouMi.Library.Newest
import YouMi.Library.ParentLinks
import YouMi.Python.Text
import YouMi.Python.Equality
import YouMi.Library.ThreeWay
import YouMi.Mcp.DictMerge
import YouMi.Mcp.MergeLaws
import YouMi.Core.Versioning
import YouMi.Core.Tool
import YouMi.Mcp.DictDiff
import YouMi.Mcp.DiffFaithful
import YouMi.Mcp.Models
import YouMi.Mcp.ToolStore.Rows
import YouMi.Mcp.ToolStore.Operations
import YouMi.Mcp.ToolStore.Effects
import YouMi.Mcp.ToolStore.WellFormed
import YouMi.Mcp.ToolStore.Heads
import YouMi.Mcp.MergeDefinitions
import YouMi.Mcp.ToolStore.Branches
import YouMi.Mcp.ToolStore.Current
import YouMi.Mcp.ToolStore.Lineage
import YouMi.Mcp.ToolStore.MergeAgain
import YouMi.Mcp.ToolStore.DefinitionVersions
import YouMi.Mcp.ToolStore.RoundTrip
import YouMi.Mcp.ToolStore.Search
import YouMi.Mcp.ToolStore.Stages
import YouMi.Mcp.ToolStore.VersionOrder
import YouMi.Mcp.ToolStore.MergeBase
import YouMi.Mcp.ToolStore.Tags
import YouMi.Library.Best
import YouMi.Mcp.ToolStore.SearchPaths
import YouMi.Library.SqlTable
import YouMi.Mcp.ToolStore.Migration
import YouMi.Mcp.ToolStore.MigrationLaws
import YouMi.Mcp.ToolStore.MigrationRebuild
import YouMi.Core.Resilience
import YouMi.Core.BreakerSteps
import YouMi.Core.BreakerAutomaton
import YouMi.Core.BreakerLaws
import YouMi.Core.Retry
import YouMi.Library.OrderedDict
import YouMi.Mcp.Vault
import YouMi.Mcp.VaultVersions
import YouMi.Library.DepthFirst
import YouMi.Library.Layers
import YouMi.Library.Interleaving
import YouMi.Coordinator.Plan
import YouMi.Coordinator.StepLaws
import YouMi.Coordinator.Execution
import YouMi.Coordinator.PlanOrder
import YouMi.Coordinator.Planner
import YouMi.Coordinator.SubAgents
import YouMi.Coordinator.PlanLaws
import YouMi.Coordinator.PlanModes
import YouMi.Library.Exchanges
import YouMi.Core.ToolExecutor
import YouMi.Core.ToolAnswers
import YouMi.Core.ReactLoop
import YouMi.Core.ReactLaws
import YouMi.Bus.Message
import YouMi.Bus.Broker
import YouMi.Bus.BrokerLaws
import YouMi.Bus.Delivery
import YouMi.Bus.Tenants
import YouMi.Bus.Server
import YouMi.Bus.ServerTenants
import YouMi.Bus.PushLoop
import YouMi.Core.Delegation
import YouMi.Core.AgentRun
import YouMi.Coordinator.Handoff
import YouMi.Coordinator.ToolRequests
import YouMi.Coordinator.Replies
import YouMi.Memory.Compaction
import YouMi.Memory.CompactionLaws
import YouMi.Bus.Indices
import YouMi.Bus.PendingAcks
import YouMi.Mcp.Approval
import YouMi.Mcp.ApprovalLog
import YouMi.Mcp.AuditGate
import YouMi.Mcp.ToolContext
import YouMi.Mcp.Bridge
import YouMi.Mcp.BridgeLoads
import YouMi.Mcp.GateApprovals
import YouMi.Mcp.VaultMetadata
import YouMi.Coordinator.ToolApproval
import YouMi.Coordinator.ApprovalLaws
import YouMi.Coordinator.ReviewQueue
import YouMi.Coordinator.ToolGrants
import YouMi.Mcp.Provider
import YouMi.Mcp.Server
import YouMi.Gateway.Models
import YouMi.Gateway.Registry
import YouMi.Gateway.Events
import YouMi.Gateway.Service
import YouMi.Gateway.Sharing
import YouMi.Gateway.WorkerPool
import YouMi.Gateway.Publishing
import YouMi.Gateway.Streams
import YouMi.Gateway.Executor
import YouMi.Gateway.TaskIsolation
import YouMi.Python.Json
import YouMi.Memory.Sessions
import YouMi.Memory.FileBackend
import YouMi.Memory.SqliteBackend
import YouMi.Memory.FileRefinement
import YouMi.Memory.BackendRefinement
import YouMi.Memory.FileRaces
import YouMi.Mcp.ToolStore.VersionChains
import YouMi.Mcp.Cone
import YouMi.Mcp.SearchNewTools
import YouMi.Mcp.SearchConfirm
import YouMi.Core.Hooks
import YouMi.Core.HookLaws
import YouMi.Library.Purging
import YouMi.Memory.Strategies
import YouMi.Memory.SummaryCoverage
import YouMi.Memory.Manager
import YouMi.Memory.SessionEnds
import YouMi.Memory.Restores
import YouMi.Memory.SharedBackends
import YouMi.Memory.TenantSessions
import YouMi.Knowledge.GlobalMemory
import YouMi.Knowledge.TenantKnowledge
import YouMi.Python.JsonText
import YouMi.Coordinator.ToolExperiences
import YouMi.Coordinator.PostTask
import YouMi.Coordinator.Promotions
import YouMi.Coordinator.FailureCounts
import YouMi.Coordinator.RightlyCounted
import YouMi.Library.RetryQueue
import YouMi.Coordinator.FixStrategies
import YouMi.Coordinator.ToolGuardian
import YouMi.Coordinator.GuardianAttempts
import YouMi.Coordinator.GuardianQueue
import YouMi.Python.IntLiteral
import YouMi.Python.Format
import YouMi.Core.VersionBumps
import YouMi.Core.VersionTexts
import YouMi.Library.Regex
import YouMi.Core.TextToolCalls
import YouMi.Mcp.ToolStore.Origins
import YouMi.Mcp.HotTools
import YouMi.Mcp.IdleTools
import YouMi.Coordinator.TaskTexts
import YouMi.Knowledge.ExperienceExtractor
import YouMi.Coordinator.Judgements
import YouMi.Mcp.EligibleTools
import YouMi.Llm.ChatStream
import YouMi.Llm.StreamLaws
import YouMi.Coordinator.RuleFixes
import YouMi.Core.Prompt
import YouMi.Core.PromptOrder
import YouMi.Knowledge.ResolvedEntries
import YouMi.Coordinator.FixMemory
import YouMi.Knowledge.Feedback
import YouMi.Library.Covered
import YouMi.Knowledge.VectorPaths
import YouMi.Coordinator.PlanMemory
import YouMi.Scheduler.RunLimits
import YouMi.Coordinator.ChangeCounts
import YouMi.Mcp.ToolStore.Identifiers
import YouMi.Security.Auth
import YouMi.Core.Plugins
import YouMi.Observability.Audit
import YouMi.Observability.Redaction
import YouMi.Library.Like
import YouMi.Mcp.SkillStore
import YouMi.Mcp.SkillTagTexts
import YouMi.Mcp.SkillTags
import YouMi.Library.Tasks
import YouMi.Mcp.ToolStore.Transactions
import YouMi.Mcp.ToolStore.TransactionLaws
import YouMi.Mcp.ToolStore.Integrity
import YouMi.Mcp.ToolStore.Interleavings
import YouMi.Mcp.ToolStore.Uninterrupted
import YouMi.Mcp.ToolStore.VersionTree
import YouMi.Mcp.VersionRouter
import YouMi.Python.JsonRoundTrip
import YouMi.Coordinator.SubprocessAgent
import YouMi.Library.FileTree
import YouMi.Tools.FileOps
import YouMi.Tools.FileJail
import YouMi.Bus.Network
import YouMi.Bus.Backlogs
import YouMi.Bus.Sockets
import YouMi.Bus.NetworkOrder
import YouMi.Core.ChatStream
import YouMi.Core.ChatStreamLaws
import YouMi.Core.ChatStreamAgreement
import YouMi.Core.ChatStreamEnd
