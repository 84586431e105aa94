import VoxForge.Gateway.SocketTracking
import VoxForge.Tools.ScopeEnforcement
import VoxForge.Sso.SignatureCoverage
import VoxForge.Pipeline.CallerScopes
import VoxForge.Pipeline.BargeIn
import VoxForge.Sessions.DocumentIntegrity
import VoxForge.Handoffs.Concurrency
import VoxForge.Handoffs.TerminalSessions
import VoxForge.Handoffs.Agreement
import VoxForge.Handoffs.AllOrNothing
import VoxForge.Auth.Delegation
import VoxForge.Auth.Memberships
import VoxForge.Auth.Escalation
import VoxForge.RateLimit.FailureModes
import VoxForge.RateLimit.Windows
import VoxForge.Memory.SearchSimilar
import VoxForge.Livekit.ReconnectGrace
import VoxForge.Gateway.AudioIsolation
import VoxForge.Knowledge.Recovery
import VoxForge.Knowledge.BlobConsistency
import VoxForge.Pipeline.ExitPhase
import VoxForge.Agents.Graph
import VoxForge.Foundation.Strategies
import VoxForge.Agents.GraphRuns
import VoxForge.Agents.History
import VoxForge.Foundation.Pages
import VoxForge.Pipeline.Conversation
import VoxForge.Core.Coercions
import VoxForge.Handoffs.Transcript
import VoxForge.Sessions.Expiry
import VoxForge.Sessions.HandoffExpiry
import VoxForge.Handoffs.Context
import VoxForge.Pipeline.TraceFreshness
import VoxForge.Outcomes.Stickiness
import VoxForge.Handoffs.Policy
import VoxForge.Sessions.Configuration
import VoxForge.Sessions.Reconciliation
import VoxForge.AgentConfig.Versions
import VoxForge.Tools.RegistryRuns
import VoxForge.Tools.ToolViews
import VoxForge.Replay.Access
import VoxForge.Auth.Deactivation
import VoxForge.Auth.Invites
import VoxForge.Auth.Accounts
import VoxForge.Sso.Connections
import VoxForge.Observability.LogSecrets
import VoxForge.Livekit.Shutdown
import VoxForge.Http.Csrf
import VoxForge.Pipeline.Sentences
import VoxForge.Agents.Verdicts
import VoxForge.Agents.ToolRounds
import VoxForge.Evaluation.TurnAbort
import VoxForge.Pipeline.Interruption
import VoxForge.Memory.Summaries
import VoxForge.Memory.PromptContext
import VoxForge.Foundation.Rotation
import VoxForge.Handoffs.RoundRobin
import VoxForge.Foundation.Averages
import VoxForge.Handoffs.Confidence
import VoxForge.Knowledge.ChunkWindows
import VoxForge.Foundation.Bytes
import VoxForge.Audio.Cartesia
import VoxForge.Audio.Wav
import VoxForge.Foundation.Paths
import VoxForge.Knowledge.BlobKeys
import VoxForge.RateLimit.Documentation
import VoxForge.Foundation.Bounds
import VoxForge.Audio.Samples
import VoxForge.Audio.Resampling
import VoxForge.Foundation.Blocks
import VoxForge.Knowledge.Lines
import VoxForge.Knowledge.JoinedText
import VoxForge.Knowledge.CsvParser
import VoxForge.Knowledge.CsvRows
import VoxForge.Knowledge.Citation
import VoxForge.Foundation.Tally
import VoxForge.Outcomes.Dashboard
import VoxForge.Outcomes.Alerts
import VoxForge.Knowledge.JobStatements
import VoxForge.Knowledge.JobCourse
import VoxForge.Knowledge.JobQueue
import VoxForge.Knowledge.JobAlone
import VoxForge.Foundation.Conservation
import VoxForge.Livekit.AudioPublisher
import VoxForge.Auth.ApiKeys
import VoxForge.Auth.Tenancy
import VoxForge.Replay.Timeline
import VoxForge.Outcomes.RecentActivity
import VoxForge.Tools.Discovery
import VoxForge.Tools.Health
import VoxForge.Support.Tickets
import VoxForge.Foundation.Words
import VoxForge.Pipeline.WholeTurn
import VoxForge.Pipeline.AgentAnswer
import VoxForge.Knowledge.Parsers
import VoxForge.Knowledge.WholeWords
import VoxForge.Auth.Slugs
