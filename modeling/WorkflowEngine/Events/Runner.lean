import WorkflowEngine.Events.Ordering
import WorkflowEngine.Queues.Lease

/-!
# Relay runners and their leader

Every worker process runs a relay runner.  A tick extends the lock or takes it, and then
calls `relayOnce` until nothing is left, at most 20 times.  A runner is not told when its
lock expires: after a pause it goes on with the call that it is in.

`lease`, `steps`, `marked` and `abandoned` are histories that no runner reads: the last
confirmation that a runner got, the runners' steps in the outbox, the rows of the calls
that marked them, and the rows of the calls that ended between publishing and marking.
-/

namespace WorkflowEngine.Events

open Queues

/-- Where a tick is. -/
inductive Phase (Token : Type) where
  /-- `EXTEND` is on its way -/
  | extend (token : Token)
  /-- it was answered -/
  | extended (kept : Bool)
  /-- `SET` is on its way -/
  | set
  /-- `INCR` is on its way -/
  | incr (token : Token)
  /-- in a call of `relayOnce` -/
  | relay (round : Nat) (call : Nat)
  deriving DecidableEq

/-- `createRelayRunner`: what one process remembers. -/
structure Runner (Token : Type) where
  /-- token and fence -/
  held : Option (Token × Nat)
  /-- the tick in progress, which makes the runner `busy` -/
  phase : Option (Phase Token)
  /-- the token that `stop` releases -/
  stopping : Option Token
  lease : Option (Token × Time)

def Runner.init {Token : Type} : Runner Token :=
  { held := none, phase := none, stopping := none, lease := none }

/-- The runners, their lock and the outbox. -/
structure Relays (Token : Type) where
  timed : TimedLock Token
  runners : Nat → Runner Token
  outbox : Outbox
  steps : List Token
  marked : List Row
  abandoned : List Row

/-- A step of the producers or of the TTL monitor. -/
def Outbox.Action.byProducer : Outbox.Action → Bool
  | .begin | .emit _ _ _ _ | .commit _ | .abort _ | .expire _ _ => true
  | _ => false

namespace Relays

inductive Action (Token : Type) where
  | wait (now : Time)
  | produce (action : Outbox.Action)
  /-- the timer fires -/
  | tick (runner : Nat)
  /-- Redis executes a command of the tick, and the answer may get lost -/
  | extend (runner : Nat) (answered : Bool)
  | resume (runner : Nat)
  | set (runner : Nat) (token : Token) (answered : Bool)
  | incr (runner : Nat) (token : Token) (answered : Bool)
  | find (runner : Nat)
  | publish (runner : Nat)
  | publishFails (runner : Nat) (written : List Message)
  | mark (runner : Nat) (publishedAt : Time)
  /-- what the tick awaits throws -/
  | throws (runner : Nat)
  | stop (runner : Nat)
  | release (runner : Nat)
  | forget (runner : Nat)
  /-- the process stops; another one may take its place -/
  | crash (runner : Nat)

variable {Token : Type}

/-- The outbox call that a runner is in. -/
def call? (relays : Relays Token) (runner : Nat) : Option Nat :=
  match (relays.runners runner).phase with
  | some (.relay _ call) => some call
  | _ => none

/-- The rows that a call has published and not marked. -/
def rowsOf : Option RelayFrame → List Row
  | some (.mark batch) => batch
  | _ => []

/-- The rows that the runner's call would leave between publishing and marking. -/
def unmarkedBy (relays : Relays Token) (runner : Nat) : List Row :=
  ((relays.call? runner).bind fun call => relays.outbox.relays[call]?).elim [] rowsOf

/-- Another state of one runner. -/
def update (relays : Relays Token) (runner : Nat) (state : Runner Token) : Relays Token :=
  { relays with runners := Function.update relays.runners runner state }

/-- The tick of a runner is over. -/
def finish (relays : Relays Token) (runner : Nat) : Relays Token :=
  relays.update runner { relays.runners runner with phase := none }

/-- The runner calls `relayOnce`. -/
def callRelayOnce (batchSize : Nat) (relays : Relays Token) (runner round : Nat) :
    Option (Relays Token) :=
  (relays.outbox.step batchSize .relayOnce).map fun outbox =>
    { relays.update runner
        { relays.runners runner with
          phase := some (.relay round relays.outbox.relays.length) } with outbox }

/-- Whatever call the runner is in ends. -/
def abandon (batchSize : Nat) (relays : Relays Token) (runner : Nat) (state : Runner Token) :
    Option (Relays Token) :=
  match relays.call? runner with
  | some call =>
      (relays.outbox.step batchSize (.crash call)).map fun outbox =>
        { relays.update runner state with
          outbox, abandoned := relays.abandoned ++ relays.unmarkedBy runner }
  | none => some (relays.update runner state)

/-- A step of the call that the runner is in. -/
def advance (batchSize : Nat) (relays : Relays Token) (runner : Nat)
    (action : Nat → Outbox.Action) : Option (Relays Token) :=
  match relays.call? runner with
  | some call =>
      (relays.outbox.step batchSize (action call)).map fun outbox =>
        { relays with
          outbox, steps := relays.steps ++ ((relays.runners runner).lease.map Prod.fst).toList }
  | none => none

variable [DecidableEq Token]

def step (ttlMs : Int) (batchSize : Nat) (relays : Relays Token) :
    Action Token → Option (Relays Token)
  | .wait now => some { relays with timed := relays.timed.wait now }
  | .produce action =>
      if action.byProducer then
        (relays.outbox.step batchSize action).map fun outbox => { relays with outbox }
      else
        none
  | .tick runner =>
      let state := relays.runners runner
      if state.phase.isSome then some relays
      else
        let phase := state.held.elim .set fun held => .extend held.1
        some (relays.update runner { state with phase := some phase })
  | .extend runner answered =>
      let state := relays.runners runner
      match state.phase with
      | some (.extend token) =>
          (relays.timed.command ttlMs (.extend token ttlMs)).map fun timed =>
            let sent := { relays with timed }
            if !answered then
              sent.finish runner
            else if timed.lock.holder = some token then
              sent.update runner
                { state with phase := some (.extended true), lease := some (token, timed.now) }
            else
              sent.update runner { state with phase := some (.extended false) }
      | _ => none
  | .resume runner =>
      let state := relays.runners runner
      match state.phase with
      | some (.extended kept) =>
          -- `stop` may have forgotten the lock in the meantime.
          if kept ∧ state.held.isSome then
            relays.callRelayOnce batchSize runner 0
          else
            some (relays.update runner { state with held := none, phase := some .set })
      | _ => none
  | .set runner token answered =>
      let state := relays.runners runner
      if state.phase = some .set then
        (relays.timed.command ttlMs (.set token)).map fun timed =>
          let sent := { relays with timed }
          if answered ∧ timed.lock.holder = some token then
            sent.update runner
              { state with phase := some (.incr token), lease := some (token, timed.now) }
          else
            sent.finish runner
      else
        none
  | .incr runner token answered =>
      let state := relays.runners runner
      if state.phase = some (.incr token) then
        (relays.timed.command ttlMs (.incr token)).bind fun timed =>
          let sent := { relays with timed }
          if answered then
            callRelayOnce batchSize
              (sent.update runner { state with held := some (token, timed.lock.fence) }) runner 0
          else
            some (sent.finish runner)
      else
        none
  | .find runner =>
      (relays.advance batchSize runner .find).map fun next =>
        -- Nothing was left, so the loop breaks.
        if (next.call? runner).bind (next.outbox.relays[·]?) = some none then
          next.finish runner
        else
          next
  | .publish runner => relays.advance batchSize runner .publish
  | .publishFails runner written =>
      (relays.advance batchSize runner (.publishFails · written)).map (·.finish runner)
  | .mark runner publishedAt =>
      (relays.advance batchSize runner (.mark · publishedAt)).bind fun next =>
        let done := { next with marked := relays.marked ++ relays.unmarkedBy runner }
        match (relays.runners runner).phase with
        | some (.relay round _) =>
            if round + 1 < 20 then done.callRelayOnce batchSize runner (round + 1)
            else some (done.finish runner)
        | _ => none
  | .throws runner =>
      relays.abandon batchSize runner { relays.runners runner with phase := none }
  | .stop runner =>
      let state := relays.runners runner
      some (relays.update runner { state with stopping := state.held.map Prod.fst })
  | .release runner =>
      let state := relays.runners runner
      match state.stopping with
      | some token =>
          (relays.timed.command ttlMs (.release token)).map fun timed =>
            { relays with timed }.update runner
              { state with lease := state.lease.filter fun lease => lease.1 ≠ token }
      | none => none
  | .forget runner =>
      let state := relays.runners runner
      if state.stopping.isSome then
        some (relays.update runner { state with held := none, stopping := none })
      else
        none
  | .crash runner => relays.abandon batchSize runner .init

def init (counters : Nat → Nat) : Relays Token :=
  { timed := .init, runners := fun _ => .init, outbox := .init counters, steps := []
    marked := [], abandoned := [] }

end Relays

/-- Any number of runners with one lock, one outbox and its producers. -/
def relaySystem (Token : Type) [DecidableEq Token] (ttlMs : Int) (batchSize : Nat)
    (counters : Nat → Nat) : Transition.System (Relays Token) (Relays.Action Token) where
  init := .init counters
  step := Relays.step ttlMs batchSize

end WorkflowEngine.Events
