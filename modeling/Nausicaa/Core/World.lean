import Mathlib.Data.Finset.Insert
import Nausicaa.Core.TurnLog
import Nausicaa.Interaction.Concurrent

/-! # One runtime and its concurrent calls

The shared state of an `AgentRuntime` is its event store and its set of active
threads.  `World.perform` executes one operation against it: the store and the
active-thread set answer as the code of `store.rs` and `runtime.rs` does, every
other seam answers whatever is proposed.

The steps of `machine` interleave any number of `start_thread`, `recover` and
`run_turn` calls operation by operation.  A call can be dropped before any of its
operations; what it holds is released then, as `ActiveThread::drop` does.
-/

namespace Nausicaa.Core

open Interaction (Machine Program Task Config Reachable)

/-- An operation together with its answer. -/
abbrev Observation := (op : Operation) × Answer op

/-- Event store and active threads.  `issued` are the ids `ThreadId::new` has given
out; a new id is distinct from all of them. -/
structure World where
  events : List EventEnvelope
  nextSequence : Nat
  issued : Finset ThreadId
  active : Finset ThreadId

/-- What a call holds: a thread id it has just generated, or the guard of a thread. -/
inductive Held where
  | nothing
  | fresh (threadId : ThreadId)
  | guard (threadId : ThreadId)
  deriving DecidableEq

/-- What belongs to one call: what it holds, what it has seen, and the thread it let go
of with the log at that moment. -/
structure Own where
  held : Held
  history : List Observation
  left : Option (ThreadId × List EventEnvelope)

namespace World

/-- `load_thread`. -/
def log (world : World) (threadId : ThreadId) : List EventEnvelope :=
  world.events.filter fun envelope => envelope.threadId = threadId

/-- The state after storing an envelope. -/
def push (world : World) (envelope : EventEnvelope) : World :=
  { world with
    events := world.events ++ [envelope]
    nextSequence := world.nextSequence + 1 }

/-- One operation.  `proposed` is what the surroundings would answer: the answer of
a seam, the id and time of a new envelope, or the failure of the store. -/
def perform (world : World) (own : Own) :
    (op : Operation) → (proposed : Answer op) → Option (Answer op × World × Own)
  | .newThreadId, threadId =>
    if threadId ∈ world.issued ∨ world.log threadId ≠ [] then none
    else some (threadId, { world with issued := insert threadId world.issued },
      { own with held := .fresh threadId })
  | .storeAppend _ _ _, .error error => some (.error error, world, own)
  | .storeAppend threadId turnId event, .ok stamp =>
    let envelope : EventEnvelope :=
      ⟨stamp.id, world.nextSequence, stamp.atUnixMs, threadId, turnId, event⟩
    some (.ok envelope, world.push envelope,
      if own.held = .fresh threadId then { own with held := .nothing } else own)
  | .loadThread _, .error error => some (.error error, world, own)
  | .loadThread threadId, .ok _ => some (.ok (world.log threadId), world, own)
  | .activeInsert threadId, _ =>
    if threadId ∈ world.active then some (.ok false, world, own)
    else some (.ok true, { world with active := insert threadId world.active },
      { own with held := .guard threadId })
  | .activeRemove threadId, _ =>
    some ((), { world with active := world.active.erase threadId },
      { own with held := .nothing, left := some (threadId, world.log threadId) })
  | _, proposed => some (proposed, world, own)

end World

def Own.observe (own : Own) (op : Operation) (answer : Answer op) : Own :=
  { own with history := own.history ++ [⟨op, answer⟩] }

/-- The operations of a runtime over its shared state. -/
def machine : Machine Operation Answer World Own where
  idle := ⟨.nothing, [], none⟩
  exec world own op answer world' own' :=
    ∃ proposed after, world.perform own op proposed = some (answer, world', after) ∧
      own' = after.observe op answer
  release world own := match own.held with
    | .guard threadId => { world with active := world.active.erase threadId }
    | .nothing | .fresh _ => world
  abandon own := { own with held := .nothing }

/-! ## Calls -/

inductive Call where
  | startThread
  | recover (threadId : ThreadId)
  | runTurn (threadId : ThreadId) (turnId : TurnId) (input : String)
      (cancellation : CancellationToken)

inductive Reply where
  | thread (threadId : ThreadId)
  | report (report : RecoveryReport)
  | outcome (outcome : TurnOutcome)

/-- The code a call runs. -/
def Call.attempt (rt : AgentRuntime) : Call → Attempt RuntimeError Reply
  | .startThread => do return .thread (← rt.startThread)
  | .recover threadId => do return .report (← rt.recover threadId)
  | .runTurn threadId turnId input cancellation => do
    return .outcome (← rt.runTurnWithIdAndCancellation threadId turnId input cancellation)

def Call.code (rt : AgentRuntime) (call : Call) :
    Program Operation Answer (Except RuntimeError Reply) :=
  (call.attempt rt).run

abbrev RuntimeTask := Task Operation Answer Own Call (Except RuntimeError Reply)

abbrev RuntimeConfiguration := Config Operation Answer World Own Call (Except RuntimeError Reply)

/-- The configurations that calls on one runtime reach from a store with `events`. -/
def Running (rt : AgentRuntime) (world : World) (config : RuntimeConfiguration) : Prop :=
  Reachable machine (Call.code rt) world config

/-- A store with arbitrary contents and no active thread. -/
def World.opened (events : List EventEnvelope) (nextSequence : Nat) (issued : Finset ThreadId) :
    World := ⟨events, nextSequence, issued, ∅⟩

/-- A store without events. -/
def World.empty : World := ⟨[], 0, ∅, ∅⟩

section Log

variable (world : World) (threadId threadId' : ThreadId)

@[simp] theorem log_push (envelope : EventEnvelope) :
    (world.push envelope).log threadId =
      world.log threadId ++ if envelope.threadId = threadId then [envelope] else [] := by
  simp only [World.log, World.push, List.filter_append]
  split
  next same => simp [same]
  next other => simp [other]

end Log

end Nausicaa.Core
