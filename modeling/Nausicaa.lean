import Nausicaa.Interaction.Program
import Nausicaa.Interaction.Concurrent
import Nausicaa.Interaction.Linear
import Nausicaa.Interaction.Watch
import Nausicaa.Core.Protocol
import Nausicaa.Core.Policy
import Nausicaa.Core.Tool
import Nausicaa.Core.Operation
import Nausicaa.Core.Recovery
import Nausicaa.Core.Runtime
import Nausicaa.Interaction.History
import Nausicaa.Core.TurnLog
import Nausicaa.Core.Pairing
import Nausicaa.Core.World
import Nausicaa.Core.Contract
import Nausicaa.Core.Ownership
import Nausicaa.Core.InTurn
import Nausicaa.Core.Serving
import Nausicaa.Core.ToolSpec
import Nausicaa.Core.TurnSpec
import Nausicaa.Core.TurnWalk
import Nausicaa.Core.RecoveryPlan
import Nausicaa.Core.RecoverySpec
import Nausicaa.Core.CallSpec
import Nausicaa.Core.LogSpec
import Nausicaa.Core.Runs
import Nausicaa.Core.Schedule
import Nausicaa.Core.TurnSafety
import Nausicaa.Core.ThreadSafety
import Nausicaa.Jsonl.Lines
import Nausicaa.Store.Jsonl
import Nausicaa.Store.Reopen
import Nausicaa.Store.Sessions
import Nausicaa.Json.Members
import Nausicaa.Store.Serde
import Nausicaa.Store.ReadBack
import Nausicaa.Store.Answers
import Nausicaa.Store.Recovered
import Nausicaa.TaskLedger.Ledger
import Nausicaa.TaskLedger.Lifecycle
import Nausicaa.TaskLedger.Calls
import Nausicaa.TaskLedger.Reopening
import Nausicaa.TaskLedger.Invariant
import Nausicaa.TaskLedger.Runs
import Nausicaa.Json.Text
import Nausicaa.TaskLedger.Serde
import Nausicaa.TaskLedger.Durability
import Nausicaa.TaskLedger.Torn
import Nausicaa.TaskLedger.Idempotency
import Nausicaa.Task.Acceptance
import Nausicaa.Task.Journal
import Nausicaa.Task.Soundness
import Nausicaa.Task.Serde
import Nausicaa.Task.Replay
import Nausicaa.Interaction.Fallible
import Nausicaa.Sse.Events
import Nausicaa.Openai.Stream
import Nausicaa.Openai.Frames
import Nausicaa.Openai.Lines
import Nausicaa.Openai.Truncation
import Nausicaa.Openai.Response
import Nausicaa.Sse.Rendering
import Nausicaa.Openai.Deltas
import Nausicaa.Openai.Agreement
import Nausicaa.Core.Delivery
import Nausicaa.Core.Delivered
import Nausicaa.Core.Observers
import Nausicaa.Core.TurnEnds
import Nausicaa.Core.TurnResult
import Nausicaa.Server.Turns
import Nausicaa.Server.Polling
import Nausicaa.Server.Rpc
import Nausicaa.Tui.State
import Nausicaa.Tui.Standing
import Nausicaa.Tui.Approvals
import Nausicaa.Tui.Supervised
import Nausicaa.Tui.Drafts
import Nausicaa.Tui.Settled
import Nausicaa.Json.Display
import Nausicaa.Tui.Render
import Nausicaa.Core.Asking
import Nausicaa.Core.Delegation
import Nausicaa.Openai.Request
import Nausicaa.Openai.Budget
import Nausicaa.Openai.Curl
import Nausicaa.Openai.Worker
import Nausicaa.Cache.Fifo
import Nausicaa.Memory.Snapshot
import Nausicaa.Memory.Journal
import Nausicaa.Memory.Serde
import Nausicaa.Memory.Updates
import Nausicaa.Memory.Recall
import Nausicaa.Eval.Run
import Nausicaa.Eval.Completion
import Nausicaa.ContextFs.Archive
import Nausicaa.ContextFs.Disk
import Nausicaa.ContextFs.Publishing
import Nausicaa.ContextFs.Preserved
import Nausicaa.ContextFs.Calls
import Nausicaa.ContextFs.Snapshots
import Nausicaa.ContextFs.Host
import Nausicaa.ContextFs.Retaining
import Nausicaa.ContextFs.Pages
import Nausicaa.ContextFs.Pager
import Nausicaa.ContextFs.Externalize
import Nausicaa.ContextFs.Lossless
import Nausicaa.Grouping.Greedy
import Nausicaa.ContextFs.Compaction
import Nausicaa.Posix.Path
import Nausicaa.Posix.Tree
import Nausicaa.Executor.FileHost
import Nausicaa.Executor.Checks
import Nausicaa.Executor.WriteInside
import Nausicaa.Posix.Canonical
import Nausicaa.Executor.Editing
import Nausicaa.Interaction.Evaluation
import Nausicaa.Executor.EditHost
import Nausicaa.Executor.EditRules
import Nausicaa.Executor.Confinement
import Nausicaa.Executor.EditServing
import Nausicaa.Core.Rules
import Nausicaa.ContextFs.Skills
import Nausicaa.ContextFs.Enumeration
import Nausicaa.TaskLedger.Expiry
import Nausicaa.TaskLedger.Oldest
import Nausicaa.Executor.Patching
import Nausicaa.Executor.Pagers
import Nausicaa.Text.Paging
import Nausicaa.Executor.Searching
import Nausicaa.Executor.Capture
import Nausicaa.Executor.Process
import Nausicaa.Executor.Spawned
import Nausicaa.Executor.Runners
import Nausicaa.Executor.KnownFailures
import Nausicaa.Text.Split
import Nausicaa.Openai.Transport
import Nausicaa.Openai.Trailer
import Nausicaa.Openai.Exchange
import Nausicaa.Openai.Observed
import Nausicaa.Core.Compiling
import Nausicaa.Context.Compilers
import Nausicaa.Openai.Conversation
import Nausicaa.Posix.Files
import Nausicaa.Executor.Workspace
import Nausicaa.Executor.Supervision
import Nausicaa.Executor.Sandbox
import Nausicaa.Executor.Shell
import Nausicaa.Executor.WriteRules
import Nausicaa.Executor.Reading
import Nausicaa.Executor.ReadFile
import Nausicaa.Interaction.Replay
