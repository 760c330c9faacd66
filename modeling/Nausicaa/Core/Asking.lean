import Nausicaa.Core.Schedule
import Nausicaa.Core.TurnWalk

/-! # A walk through the calls of a runtime

What the operations keep that are neither model requests nor preparations, all the code around the
loop of a turn keeps, whatever it is answered (`Plainly.attempt`).
-/

namespace Nausicaa.Core

open Interaction (Contract)
open Interaction.Contract (Keeps Tries)
open Std (TreeSet)

/-- An operation that neither asks a model nor prepares a call. -/
def Operation.IsPlain : Operation → Prop
  | .completeControlled .. | .prepare .. => False
  | _ => True

/-- Plain operations are permitted and keep an invariant. -/
structure Plainly {State : Type} (contract : Contract Operation Answer State)
    (invariant : State → Prop) : Prop where
  permits : ∀ op : Operation, op.IsPlain → ∀ state, invariant state → contract.permit state op
  keeps : ∀ op : Operation, op.IsPlain → ∀ state answer state', invariant state →
    contract.step state op answer state' → invariant state'

namespace Plainly

variable {State : Type} {contract : Contract Operation Answer State} {invariant : State → Prop}
variable {rt : AgentRuntime} {ε α : Type} {threadId : ThreadId} {turnId : Option TurnId}
variable {event : RuntimeEvent} (plain : Plainly contract invariant)

include plain

theorem perform (op : Operation) (isPlain : op.IsPlain) :
    contract.Keeps invariant (Core.perform op : Attempt ε (Answer op)) := by
  intro state holds
  exact Tries.request (plain.permits op isPlain state holds) fun answer state' step =>
    plain.keeps op isPlain state answer state' holds step

theorem notify {envelope : EventEnvelope} : contract.Keeps invariant (rt.notify envelope) := by
  unfold AgentRuntime.notify
  induction rt.observers with
  | nil => exact Keeps.pure _
  | cons observer observers ih =>
    exact Keeps.bind (plain.perform (.onEvent ..) trivial) fun _ => ih

theorem append : contract.Keeps invariant (rt.append threadId turnId event) := by
  apply Keeps.bind (plain.perform (.storeAppend ..) trivial)
  intro answer
  cases answer with
  | error source => exact Keeps.throw _
  | ok envelope => exact Keeps.bind plain.notify fun _ => Keeps.pure _

theorem loadThread : contract.Keeps invariant (AgentRuntime.loadThread threadId) := by
  apply Keeps.bind (plain.perform (.loadThread _) trivial)
  intro answer
  cases answer with
  | error source => exact Keeps.throw _
  | ok events => exact Keeps.pure _

theorem appendAll {entries : TurnLog} :
    contract.Keeps invariant (Core.appendAll threadId entries) := by
  induction entries with
  | nil => exact Keeps.pure _
  | cons entry entries ih =>
    apply Keeps.bind _ fun _ => ih
    apply Keeps.bind (plain.perform (.storeAppend ..) trivial)
    intro answer
    cases answer with
    | error source => exact Keeps.throw _
    | ok envelope => exact Keeps.pure _

theorem recoverThread : contract.Keeps invariant (Core.recoverThread threadId) := by
  rw [recoverThread_eq]
  apply Keeps.bind (plain.perform (.loadThread _) trivial)
  intro answer
  cases answer with
  | error source => exact Keeps.throw _
  | ok events => exact Keeps.bind plain.appendAll fun _ => Keeps.pure _

theorem notifyFrom {before : Nat} {envelopes : List EventEnvelope} :
    contract.Keeps invariant (rt.notifyFrom before envelopes) := by
  induction envelopes with
  | nil => exact Keeps.pure _
  | cons envelope envelopes ih =>
    unfold AgentRuntime.notifyFrom
    split
    · exact Keeps.bind plain.notify fun _ => ih
    · exact ih

theorem recoverExclusive : contract.Keeps invariant (rt.recoverExclusive threadId) := by
  apply Keeps.bind plain.loadThread
  intro events
  apply Keeps.bind
  · apply Keeps.bind (Keeps.outcome plain.recoverThread)
    intro result
    cases result with
    | error error => exact Keeps.throw _
    | ok report => exact Keeps.pure _
  · intro report
    split
    · exact Keeps.pure _
    · apply Keeps.bind plain.loadThread
      intro events
      exact Keeps.bind plain.notifyFrom fun _ => Keeps.pure _

theorem holding {body : Attempt RuntimeError α} (keeps : contract.Keeps invariant body) :
    contract.Keeps invariant (AgentRuntime.holding threadId body) := by
  apply Keeps.bind
  · apply Keeps.bind (plain.perform (.activeInsert _) trivial)
    intro answer
    cases answer with
    | error source => exact Keeps.throw _
    | ok absent =>
      cases absent with
      | false => exact Keeps.throw _
      | true => exact Keeps.pure _
  · intro _
    apply Keeps.bind (Keeps.outcome keeps)
    intro result
    apply Keeps.bind (plain.perform (.activeRemove _) trivial)
    intro _
    cases result with
    | error error => exact Keeps.throw _
    | ok value => exact Keeps.pure _

theorem ensured {code : Attempt RuntimeError α} (keeps : contract.Keeps invariant code) :
    contract.Keeps invariant (do AgentRuntime.ensureThread threadId; code) := by
  apply Keeps.bind
  · apply Keeps.bind plain.loadThread
    intro events
    split
    · exact Keeps.pure _
    · exact Keeps.throw _
  · intro _
    exact keeps

/-! The code of the calls, when the loop of a turn keeps the invariant. -/

variable (loops : ∀ (turn : Turn) (remaining iteration : Nat) (transcript : List TranscriptMessage)
  (seen : TreeSet CallId), turn.capabilities = rt.capabilities →
  turn.visibleTools = rt.tools.definitionsFor rt.capabilities.visibleNames →
  contract.Keeps invariant (rt.turnLoop turn remaining iteration transcript seen))

include loops

theorem runTurnExclusive {turnId : TurnId} {input : String} {cancellation : CancellationToken} :
    contract.Keeps invariant (rt.runTurnExclusive threadId turnId input cancellation) := by
  apply Keeps.bind
  · apply Keeps.bind plain.loadThread
    intro events
    split
    · exact Keeps.throw _
    · exact Keeps.pure _
  · intro _
    apply Keeps.bind plain.recoverExclusive
    intro _
    apply Keeps.bind plain.append
    intro _
    apply Keeps.bind plain.append
    intro _
    apply Keeps.bind plain.loadThread
    intro events
    exact loops _ _ _ _ _ rfl rfl

theorem attempt (call : Call) : contract.Keeps invariant (call.attempt rt) := by
  cases call with
  | startThread =>
    apply Keeps.bind _ fun _ => Keeps.pure _
    apply Keeps.bind (plain.perform .newThreadId trivial)
    intro threadId
    exact Keeps.bind plain.append fun _ => Keeps.pure _
  | recover threadId =>
    apply Keeps.bind _ fun _ => Keeps.pure _
    exact plain.ensured (plain.holding plain.recoverExclusive)
  | runTurn threadId turnId input cancellation =>
    apply Keeps.bind _ fun _ => Keeps.pure _
    exact plain.ensured (plain.holding (plain.runTurnExclusive loops))

end Plainly

end Nausicaa.Core
