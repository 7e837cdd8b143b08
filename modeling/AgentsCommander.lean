import AgentsCommander.AgentUpdate.InstallLaw
import AgentsCommander.AutoClose.Grace
import AgentsCommander.Capture.Consumption
import AgentsCommander.Capture.EpochRuns
import AgentsCommander.Capture.HandOff
import AgentsCommander.Capture.Reconcile
import AgentsCommander.Capture.Scheduling
import AgentsCommander.Capture.TurnLaw
import AgentsCommander.Clocks.Convergence
import AgentsCommander.Clocks.Escrow
import AgentsCommander.Clocks.Ordering
import AgentsCommander.Clocks.Saves
import AgentsCommander.CodingAgents.Ops
import AgentsCommander.CodingAgents.OpsLaw
import AgentsCommander.ContextAlerts.Upkeep
import AgentsCommander.ContextAlerts.Upkeep
import AgentsCommander.Foundation.Device
import AgentsCommander.Foundation.Lines
import AgentsCommander.Foundation.Occurrence
import AgentsCommander.Foundation.Ranking
import AgentsCommander.Idle.Burst
import AgentsCommander.Idle.Handles
import AgentsCommander.LocalBackend.CursorQuery
import AgentsCommander.Loops.CoalescingRuns
import AgentsCommander.Loops.Laws
import AgentsCommander.MessageStore.DeliveryRuns
import AgentsCommander.MessageStore.TargetLockRuns
import AgentsCommander.Messaging.Filenames
import AgentsCommander.Messaging.FilenamesLaw
import AgentsCommander.Output.History
import AgentsCommander.Output.Laws
import AgentsCommander.Output.Markers
import AgentsCommander.Output.MarkersRuns
import AgentsCommander.PtyInput.AtMostOnce
import AgentsCommander.PtyInput.Attempts
import AgentsCommander.PtyInput.Capacity
import AgentsCommander.PtyInput.Clock
import AgentsCommander.PtyInput.Compaction
import AgentsCommander.PtyInput.Startup
import AgentsCommander.Purge.Reports
import AgentsCommander.QuitGate.Budget
import AgentsCommander.QuitGate.Safety
import AgentsCommander.QuitGate.Waiters
import AgentsCommander.RemoteWatcher.CiMerge
import AgentsCommander.RemoteWatcher.Staleness
import AgentsCommander.RemoteWatcher.StalenessLaw
import AgentsCommander.ResponseClose.Freshness
import AgentsCommander.ResponseClose.Settlement
import AgentsCommander.Selection.Quiescence
import AgentsCommander.Selection.TicketSettlement
import AgentsCommander.Sessions.Atomic
import AgentsCommander.Sessions.Carrier
import AgentsCommander.Sessions.CarrierLaw
import AgentsCommander.Sessions.CarrierSteps
import AgentsCommander.Sessions.Projection
import AgentsCommander.Sessions.PromptDomains
import AgentsCommander.Sessions.RevisionLaw
import AgentsCommander.Sessions.Selecting
import AgentsCommander.Sessions.Sweep
import AgentsCommander.Tasks.CleanLaw
import AgentsCommander.Tasks.CleanPair
import AgentsCommander.Tasks.CleanRuns
import AgentsCommander.Tasks.CleanSpares
import AgentsCommander.Tasks.Document
import AgentsCommander.Tasks.DocumentLaw
import AgentsCommander.Tasks.Edits
import AgentsCommander.Tasks.Status
import AgentsCommander.Tasks.StatusLaw
import AgentsCommander.Tasks.StatusRuns
import AgentsCommander.Telegram.Backlog
import AgentsCommander.Telegram.Chunks
import AgentsCommander.Telegram.Delivery
import AgentsCommander.Telegram.Redact
import AgentsCommander.Telegram.RedactLaw
import AgentsCommander.Terminal.Convergence
import AgentsCommander.TerminalSnapshot.Payload
import AgentsCommander.Transcript.Completeness
import AgentsCommander.Transcript.Growth
import AgentsCommander.Typing.Classifiers
import AgentsCommander.Typing.Hold
import AgentsCommander.Watchers.DedupeLaw
import AgentsCommander.Watchers.Frame
import AgentsCommander.Watchers.Occurrence
