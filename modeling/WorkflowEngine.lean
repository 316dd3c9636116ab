import WorkflowEngine.Foundations.Transition
import WorkflowEngine.Foundations.Purge
import WorkflowEngine.Foundations.Session
import WorkflowEngine.Foundations.Triples
import WorkflowEngine.Foundations.Collection
import WorkflowEngine.Foundations.Counting
import WorkflowEngine.Foundations.Snapshot
import WorkflowEngine.Foundations.Precedence
import WorkflowEngine.Foundations.Dataflow
import WorkflowEngine.Workflow.States
import WorkflowEngine.Workflow.Dag
import WorkflowEngine.Models
import WorkflowEngine.Workers.Retry
import WorkflowEngine.Repositories.Task
import WorkflowEngine.Workflow.Engine
import WorkflowEngine.Workflow.System
import WorkflowEngine.Workflow.DagValid
import WorkflowEngine.Workflow.Run
import WorkflowEngine.Workflow.TaskMoves
import WorkflowEngine.Workflow.TaskInvariant
import WorkflowEngine.Workflow.Run.Counter
import WorkflowEngine.Workflow.Run.Shape
import WorkflowEngine.Workflow.Run.Dependencies
import WorkflowEngine.Workflow.Run.Approvals
import WorkflowEngine.Workflow.Run.Invariant
import WorkflowEngine.Workflow.Run.Ends
import WorkflowEngine.Workflow.Run.Paths
import WorkflowEngine.Workflow.Run.Events
import WorkflowEngine.Workflow.Callbacks
import WorkflowEngine.Workflow.Writes
import WorkflowEngine.Workflow.Keyed
import WorkflowEngine.Workflow.Database
import WorkflowEngine.Workflow.Commit
import WorkflowEngine.Workflow.Refinement.Success
import WorkflowEngine.Workflow.Refinement.Failure
import WorkflowEngine.Workflow.Refinement.Control
import WorkflowEngine.Workflow.Refinement
import WorkflowEngine.Workflow.Frames
import WorkflowEngine.Workflow.Processes
import WorkflowEngine.Workflow.History
import WorkflowEngine.Workflow.Committed
import WorkflowEngine.Workflow.Attended
import WorkflowEngine.Workflow.Actionable
import WorkflowEngine.Workflow.Overlaps
import WorkflowEngine.Workflow.Guarantees.Counter
import WorkflowEngine.Workflow.Guarantees.Order
import WorkflowEngine.Workflow.Guarantees.Recovery
import WorkflowEngine.Workflow.Guarantees.Fencing
import WorkflowEngine.Workflow.Guarantees.Budget
import WorkflowEngine.Workflow.Guarantees.Approvals
import WorkflowEngine.Workflow.Guarantees.Finished
import WorkflowEngine.Workflow.Guarantees.Transitions
import WorkflowEngine.Workflow.Guarantees.Outbox
import WorkflowEngine.Workflow.Guarantees.Pause
import WorkflowEngine.Workers.RunTask
import WorkflowEngine.Workflow.Guarantees.Determinism
import WorkflowEngine.Foundations.SortedSet
import WorkflowEngine.Queues.TaskQueue
import WorkflowEngine.Queues.Representation
import WorkflowEngine.Queues.Ownership
import WorkflowEngine.Queues.Lock
import WorkflowEngine.Queues.Lease
import WorkflowEngine.Events.Analytics
import WorkflowEngine.Events.Relay
import WorkflowEngine.Events.Pipeline
import WorkflowEngine.Events.Ordering
import WorkflowEngine.Events.Runner
import WorkflowEngine.Events.Leaders
import WorkflowEngine.Events.Publications
import WorkflowEngine.Workflow.Attempts
import WorkflowEngine.Workflow.Guarantees.Attempts
import WorkflowEngine.Queues.Arrivals
import WorkflowEngine.Workers.QueueWorker
import WorkflowEngine.Workflow.Postponed
import WorkflowEngine.Workers.Backoff
import WorkflowEngine.Workers.Delivery
import WorkflowEngine.Workers.Working
import WorkflowEngine.Workers.Guarantees.Rest
import WorkflowEngine.Workers.Leases
import WorkflowEngine.Workers.Guarantees.Exclusive
import WorkflowEngine.Middleware.RateLimit
import WorkflowEngine.Middleware.Refusals
import WorkflowEngine.Providers.CircuitBreaker
import WorkflowEngine.Providers.Fallback
import WorkflowEngine.Foundations.Simulation
import WorkflowEngine.Providers.History
import WorkflowEngine.Rag.Guarantees.Deletion
import WorkflowEngine.Workflow.Provenance
import WorkflowEngine.Workflow.Throws
import WorkflowEngine.Workflow.Guarantees.Errors
import WorkflowEngine.Workflow.Guarantees.Outcomes
import WorkflowEngine.Services.Access
import WorkflowEngine.Services.Canonical
import WorkflowEngine.Scheduler.Cron
import WorkflowEngine.Services.Workflow
import WorkflowEngine.Services.Platform
import WorkflowEngine.Services.Edits
import WorkflowEngine.Services.Known
import WorkflowEngine.Services.Steps
import WorkflowEngine.Services.Starting
import WorkflowEngine.Services.Invariant
import WorkflowEngine.Services.Guarantees.Versions
import WorkflowEngine.Scheduler.Ticks
import WorkflowEngine.Scheduler.Guarantees.Slots
import WorkflowEngine.Scheduler.Guarantees.Skipped
import WorkflowEngine.Services.Guarantees.Definitions
import WorkflowEngine.Services.Answers
import WorkflowEngine.Services.Inserts
import WorkflowEngine.Services.Progress
import WorkflowEngine.Services.Guarantees.Idempotency
import WorkflowEngine.Foundations.Lockstep
import WorkflowEngine.Workflow.Owners
import WorkflowEngine.Workflow.Tenants
import WorkflowEngine.Workflow.TwinCalls
import WorkflowEngine.Services.Tenants
import WorkflowEngine.Services.Goals
import WorkflowEngine.Services.Guarantees.Noninterference
import WorkflowEngine.Foundations.Layers
import WorkflowEngine.Foundations.Scan
import WorkflowEngine.Workflow.DagErrors
import WorkflowEngine.Workflow.DagLevels
import WorkflowEngine.Workflow.DagSearch
import WorkflowEngine.Workflow.Guarantees.Validation
import WorkflowEngine.Workflow.Guarantees.Levels
import WorkflowEngine.Workflow.Guarantees.Completions
import WorkflowEngine.Workflow.Guarantees.Meaning
import WorkflowEngine.Workflow.Guarantees.Rounds
import WorkflowEngine.Workflow.Guarantees.Cycles
import WorkflowEngine.Foundations.Binary64
import WorkflowEngine.Foundations.Text
import WorkflowEngine.Foundations.Numerals
import WorkflowEngine.Foundations.Json
import WorkflowEngine.Foundations.JsonRoundTrip
import WorkflowEngine.Foundations.JsonEquality
import WorkflowEngine.Foundations.JsonText
import WorkflowEngine.Foundations.JsonReading
import WorkflowEngine.Services.Guarantees.Requests
import WorkflowEngine.Foundations.Separators
import WorkflowEngine.Foundations.Runs
import WorkflowEngine.Ai.Structured
import WorkflowEngine.Ai.Fences
import WorkflowEngine.Ai.Guarantees.Extraction
import WorkflowEngine.Ai.Calculator
import WorkflowEngine.Ai.Calculator.Grammar
import WorkflowEngine.Ai.Calculator.Steps
import WorkflowEngine.Ai.Calculator.Soundness
import WorkflowEngine.Ai.Calculator.Completeness
import WorkflowEngine.Ai.Guarantees.Arithmetic
import WorkflowEngine.Foundations.Replace
import WorkflowEngine.Ai.Prompts
import WorkflowEngine.Ai.Guarantees.Delimiters
import WorkflowEngine.Rag.VectorStore
import WorkflowEngine.Rag.Guarantees.Spaces
import WorkflowEngine.Foundations.Words
import WorkflowEngine.Rag.Text
import WorkflowEngine.Rag.Guarantees.Cleaning
import WorkflowEngine.Rag.Ingestion
import WorkflowEngine.Rag.Guarantees.Failures
import WorkflowEngine.Foundations.Objects
import WorkflowEngine.Ai.Agent.Tools
import WorkflowEngine.Workers.Handlers
import WorkflowEngine.Ai.Guarantees.Names
import WorkflowEngine.Foundations.Utf8
import WorkflowEngine.Consumers.Messages
import WorkflowEngine.Consumers.Guarantees.Poison
import WorkflowEngine.Consumers.Published
import WorkflowEngine.Ai.Generate
import WorkflowEngine.Ai.Agent.Loop
import WorkflowEngine.Ai.Agent.Trace
import WorkflowEngine.Ai.Guarantees.Agent
import WorkflowEngine.Ai.Guarantees.Repeats
import WorkflowEngine.Rag.Service
import WorkflowEngine.Rag.Calls
import WorkflowEngine.Rag.Interleavings
import WorkflowEngine.Rag.Held
import WorkflowEngine.Rag.Guarantees.Uploads
import WorkflowEngine.Rag.Guarantees.Grounding
import WorkflowEngine.Rag.Guarantees.Isolation
import WorkflowEngine.Auth.Tokens
import WorkflowEngine.Auth.Service
import WorkflowEngine.Auth.History
import WorkflowEngine.Auth.Guarantees.Revocation
import WorkflowEngine.Auth.Requests
import WorkflowEngine.Auth.Guarantees.Privileges
import WorkflowEngine.Foundations.Sweep
import WorkflowEngine.Workflow.Guarantees.Reconciler
