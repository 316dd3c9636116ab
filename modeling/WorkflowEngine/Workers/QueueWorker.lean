import Mathlib.Data.String.Basic
import WorkflowEngine.Queues.TaskQueue
import WorkflowEngine.Workers.RunTask
import WorkflowEngine.Workflow.Processes

/-!
# Queue workers

The engine's processes together with the task queue that they share and the loops of
the queue workers.  MongoDB, Redis and all processes read one clock.  A loop may stall
between any two of its operations, however long its leases are.
-/

namespace WorkflowEngine

open Queues

/-- Redis orders the ids of one score as strings; here any order of them will do. -/
instance : LinearOrder TaskId :=
  .lift' (fun taskId => toLex (taskId.executionId, taskId.key)) <| by
    rintro ⟨executionId, key⟩ ⟨executionId', key'⟩ same
    cases toLex.injective same
    rfl

variable {Val : Type}

/-- Where a loop of a queue worker is. -/
inductive Loop (Val : Type) where
  /-- about to claim an id -/
  | polling
  /-- `processTask` is about to start the task -/
  | claimed (taskId : TaskId)
  /-- this call of `startTask` is in progress -/
  | starting (taskId : TaskId) (call : Nat)
  /-- the handler runs, and a timer renews both leases -/
  | running (taskId : TaskId) (claimed : Started Val)
  /-- `runTask` reports by this call -/
  | reporting (taskId : TaskId) (call : Nat)
  /-- about to acknowledge the id -/
  | finishing (taskId : TaskId)

/-- What a loop does next. -/
inductive Move (Val : Type) where
  | claim (leaseMs : Int)
  | startTask (workerId : String)
  | extendLease (leaseMs : Int)
  | report (result : HandlerResult Val)
  | ack
  /-- an operation throws; a call in progress may still take effect -/
  | giveUp

/-- A loop whose call of the engine has ended with this reply. -/
def Loop.resumed (call : Nat) (reply : Option (Reply Val)) : Loop Val → Loop Val
  | .starting taskId pending =>
      if pending = call then
        match reply with
        | some (.startTask _ (some started)) => .running taskId started
        -- finished, cancelled, or held by a live worker
        | some (.startTask _ none) => .finishing taskId
        | _ => .polling
      else
        .starting taskId pending
  | .reporting taskId pending =>
      if pending = call then
        match reply with
        | some (.threw _) => .polling
        | _ => .finishing taskId
      else
        .reporting taskId pending
  | loop => loop

structure Cluster (Val : Type) where
  /-- the engine's calls on MongoDB -/
  sys : Sys Val
  /-- the keys in Redis -/
  queue : Queue TaskId
  now : Time
  loops : List (Loop Val)

namespace Frame

/-- The step compares with the clock of the database server, or writes its time. -/
def usesServerClock : Frame Val → Bool
  | .startTask _ _ | .renewLease _ _ | .sweepRunning _ => true
  | _ => false

/-- What the step asks of the queue; nothing while Redis is down. -/
def queueCall? (env : Env) : Frame Val → Option (Call TaskId)
  | .enqueue taskId => if env.redisUp then some (.enqueue taskId) else none
  | .enqueueDelayed taskId delayMs =>
      if env.redisUp then some (.enqueueDelayed taskId delayMs) else none
  | _ => none

/-- A call of `startTask`, which only a queue worker makes. -/
def starts? : Frame Val → Option TaskId
  | .startTask taskId _ => some taskId
  | _ => none

end Frame

namespace Cluster

inductive Action (Val : Type) where
  /-- time passes -/
  | tick (ms : Nat)
  /-- some process calls a function of the engine -/
  | invoke (frame : Frame Val)
  /-- a call of the engine performs its next step -/
  | advance (call : Nat) (env : Env)
  | crash (call : Nat)
  /-- a worker starts another loop -/
  | spawn
  | move (loop : Nat) (move : Move Val)
  /-- queue maintenance -/
  | requeueExpired (limit : Int)
  | promoteDue (limit : Int)

def init (start : Time) : Cluster Val :=
  { sys := Sys.init, queue := .empty, now := start, loops := [] }

/-- The keys after a call to the queue. -/
def served (cluster : Cluster Val) (call : Call TaskId) : Queue TaskId :=
  (call.run cluster.queue cluster.now).1

/-- The clock reading of a step: of the server now, or of the process a while ago. -/
def onTime (cluster : Cluster Val) (action : WorkflowEngine.Action Val) (env : Env) : Bool :=
  (cluster.sys.frame? action).all fun frame =>
    if frame.usesServerClock then
      decide (env.now = cluster.now)
    else
      decide (env.now ≤ cluster.now)

/-- A step of the engine has led here.  The loop that waited for its call goes on. -/
def advanced (cluster : Cluster Val) (call : Nat) (env : Env) (sys : Sys Val) : Cluster Val :=
  let asked := (cluster.sys.frame? (.advance call env)).bind fun frame => frame.queueCall? env
  let ended := sys.calls[call]?.any List.isEmpty
  let replies := sys.log.take (sys.log.length - cluster.sys.log.length)
  { cluster with
    sys
    queue := asked.elim cluster.queue cluster.served
    loops :=
      if ended then cluster.loops.map (Loop.resumed call replies.head?) else cluster.loops }

section Step

variable [Mixed Val]

/-- A loop calls the engine. -/
def calls (cluster : Cluster Val) (index : Nat) (frame : Frame Val) (waiting : Nat → Loop Val) :
    Option (Cluster Val) :=
  (cluster.sys.step (.invoke frame)).map fun sys =>
    { cluster with
      sys, loops := cluster.loops.set index (waiting cluster.sys.calls.length) }

/-- One operation of a loop. -/
def moved (cluster : Cluster Val) (index : Nat) : Loop Val → Move Val → Option (Cluster Val)
  | .polling, .claim leaseMs =>
      match (Call.claim leaseMs).run cluster.queue cluster.now with
      | (queue, .claimed (some taskId)) =>
          some { cluster with queue, loops := cluster.loops.set index (.claimed taskId) }
      | _ => none
  | .claimed taskId, .startTask workerId =>
      cluster.calls index (.startTask taskId workerId) (.starting taskId)
  | .running taskId _, .extendLease leaseMs =>
      some { cluster with queue := cluster.served (.extendLease taskId leaseMs) }
  -- the timer runs until the report has been made
  | .reporting taskId _, .extendLease leaseMs =>
      some { cluster with queue := cluster.served (.extendLease taskId leaseMs) }
  | .running taskId claimed, .report result =>
      cluster.calls index (.transaction (runTask claimed result)) (.reporting taskId)
  | .finishing taskId, .ack =>
      some { cluster with
        queue := cluster.served (.ack taskId), loops := cluster.loops.set index .polling }
  | _, .giveUp => some { cluster with loops := cluster.loops.set index .polling }
  | _, _ => none

def step (cluster : Cluster Val) : Action Val → Option (Cluster Val)
  | .tick ms => some { cluster with now := cluster.now + ms }
  | .invoke frame =>
      if frame.starts?.isSome then
        none
      else
        (cluster.sys.step (.invoke frame)).map fun sys => { cluster with sys }
  | .advance call env =>
      if cluster.onTime (.advance call env) env then
        (cluster.sys.step (.advance call env)).map (cluster.advanced call env)
      else
        none
  | .crash call => (cluster.sys.step (.crash call)).map fun sys => { cluster with sys }
  | .spawn => some { cluster with loops := cluster.loops ++ [.polling] }
  | .move index move => cluster.loops[index]?.bind fun loop => cluster.moved index loop move
  | .requeueExpired limit =>
      some { cluster with queue := cluster.served (.requeueExpired limit) }
  | .promoteDue limit => some { cluster with queue := cluster.served (.promoteDue limit) }

end Step

end Cluster

/-- Everything that works on tasks, from an empty database and an empty queue. -/
def clusterSystem (Val : Type) [Mixed Val] (start : Time) :
    Transition.System (Cluster Val) (Cluster.Action Val) where
  init := Cluster.init start
  step := Cluster.step

end WorkflowEngine
