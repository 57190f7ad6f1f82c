import GitAgent.Library.Transition
import GitAgent.Library.Sync
import GitAgent.Library.Pool
import GitAgent.Library.Dict
import GitAgent.Library.Table
import GitAgent.Hub.Event
import GitAgent.Hub.Schema
import GitAgent.Hub.Ingest
import GitAgent.Hub.Runners
import GitAgent.Hub.Cascade
import GitAgent.Hub.Request
import GitAgent.Runner.Event
import GitAgent.Runner.Store
import GitAgent.Runner.Await
import GitAgent.Runner.Service
import GitAgent.Runner.Move
import GitAgent.Runner.System
import GitAgent.Runner.Locks
import GitAgent.Runner.Slots
import GitAgent.Runner.SlotWait
import GitAgent.Runner.Row
import GitAgent.Runner.Turns
import GitAgent.Runner.Holder
import GitAgent.Runner.Quiescence
import GitAgent.Runner.Reactions
import GitAgent.Runner.Handler
import GitAgent.Cluster.Publications
import GitAgent.Cluster.Outbox
import GitAgent.Cluster.System
import GitAgent.Cluster.Holder
import GitAgent.Cluster.Stranded
import GitAgent.Library.Json
import GitAgent.Hub.Payload
import GitAgent.Hub.Subscription
import GitAgent.Hub.Webhook
import GitAgent.Cluster.Gate
import GitAgent.Runner.Wire
import GitAgent.Hub.Wire
import GitAgent.Cluster.Wire
import GitAgent.Library.Unwinding
import GitAgent.Hub.Deliveries
import GitAgent.Hub.Tenants
import GitAgent.Runner.Reaper
import GitAgent.Runner.Activity
import GitAgent.Agent.Message
import GitAgent.Agent.Limit
import GitAgent.Agent.Budget
import GitAgent.Library.Peak
import GitAgent.Agent.Receipt
import GitAgent.Agent.Citation
import GitAgent.Agent.Result
import GitAgent.Agent.Ledger
import GitAgent.Agent.Finding
import GitAgent.Agent.Delegation
import GitAgent.Agent.Executor
import GitAgent.Agent.Frames
import GitAgent.Agent.Lifecycle
import GitAgent.Hub.Sandbox
import GitAgent.Hub.Provision
import GitAgent.Cluster.Address
import GitAgent.Hub.Auth
import GitAgent.Library.Broadcast
import GitAgent.Runner.Stream
import GitAgent.Runner.History
import GitAgent.Runner.Thread
import GitAgent.Library.Waiters
import GitAgent.Agent.Capacity
import GitAgent.Hub.Outbox
import GitAgent.Agent.Report
import GitAgent.Library.Ancestry
import GitAgent.Agent.Clone
import GitAgent.Agent.Porcelain
import GitAgent.Agent.Introduced
import GitAgent.Library.Escape
import GitAgent.Agent.Toolset
import GitAgent.Agent.Sanitization
import GitAgent.Agent.Hygiene
import GitAgent.Agent.Selection
import GitAgent.Runner.Consumer
import GitAgent.Library.Recent
import GitAgent.Library.Decimal
import GitAgent.Agent.Loop
import GitAgent.Agent.Answer
import GitAgent.Hub.Refresh
import GitAgent.Library.Framing
import GitAgent.Library.Utf8
import GitAgent.Cluster.Sse
import GitAgent.Library.Fault
import GitAgent.Hub.Connect
import GitAgent.Hub.Atomicity
import GitAgent.Hub.Trigger
import GitAgent.Library.Latest
import GitAgent.Library.Trim
import GitAgent.Agent.Versions
import GitAgent.Library.Interleave
import GitAgent.Agent.Graph
import GitAgent.Agent.FoldBack
import GitAgent.Agent.Interleaving
import GitAgent.Agent.Collected
import GitAgent.Library.Lines
import GitAgent.Agent.BlameText
import GitAgent.Agent.BlameDecode
import GitAgent.Agent.BlameForged
import GitAgent.Agent.Metadata
import GitAgent.Library.Firsts
import GitAgent.Agent.Capture
import GitAgent.Agent.Deferred
import GitAgent.Library.Handout
import GitAgent.Tunnel.Relay
import GitAgent.Evals.Battery
import GitAgent.Evals.Grade
import GitAgent.Evals.Aggregate
import GitAgent.Library.Group
import GitAgent.Hub.RepoURL
import GitAgent.Library.Percent
import GitAgent.Library.Segments
import GitAgent.Hub.Transcript
import GitAgent.Agent.Cited
import GitAgent.Agent.Retention
import GitAgent.Library.Occurrence
import GitAgent.Runner.Terminal
import GitAgent.Agent.Table
import GitAgent.Hub.Export
import GitAgent.Cluster.Tables
import GitAgent.Screen.Chat
import GitAgent.Screen.Transcript
import GitAgent.Library.Csv
import GitAgent.Library.Ranked
import GitAgent.Hub.Download
import GitAgent.Hub.Accounts
import GitAgent.Library.Selection
import GitAgent.Library.Guard
import GitAgent.Hub.Isolation
import GitAgent.Hub.Ownership
import GitAgent.Library.Shell
import GitAgent.Agent.Commands
import GitAgent.Library.Exchange
import GitAgent.Cluster.Broker
import GitAgent.Cluster.Coverage
