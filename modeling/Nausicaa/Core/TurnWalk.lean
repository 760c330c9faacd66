import Nausicaa.Core.TurnSpec

/-! # A walk through the code of a turn

What the operations of a turn keep, the turn keeps.  `TurnRules` lists what has to be
known of a contract and an invariant, one field for each kind of thing a turn does; the
walk then carries the invariant through every method, whichever way it ends.  `TurnParts`
leaves model requests out, for contracts that ask something of the context that is sent.
-/

namespace Nausicaa.Core

open Interaction (Contract)
open Interaction.Contract (Carries Keeps Tries)
open Std (TreeSet)

/-- An operation that neither takes nor gives anything the runtime keeps. -/
def Operation.IsSeam : Operation → Prop
  | .newThreadId | .storeAppend .. | .activeInsert _ | .activeRemove _ | .onEvent .. => False
  | _ => True

/-- A turn shows the model the tools it was given, and prepares calls of tools that are
registered and not denied. -/
def Operation.Follows (rt : AgentRuntime) (turn : Turn) : Operation → Prop
  | .completeControlled request _ => request.tools = turn.visibleTools
  | .prepare tool call _ =>
    rt.tools.get call.name = some tool ∧ turn.capabilities.access call.name ≠ .deny
  | _ => True

def Operation.IsModelRequest : Operation → Prop
  | .completeControlled .. => True
  | _ => False

variable {State : Type}

/-- What the parts of a turn between two model requests rely on. -/
structure TurnParts (contract : Contract Operation Answer State) (rt : AgentRuntime) (turn : Turn)
    (invariant : State → Prop) (failed : RuntimeError → State → Prop) : Prop where
  seam : ∀ op : Operation, op.IsSeam → ¬ op.IsModelRequest → op.Follows rt turn →
    contract.Carries invariant failed (perform op)
  append : ∀ event : RuntimeEvent, ¬ event.IsTerminal →
    contract.Carries invariant failed (rt.append turn.threadId (some turn.turnId) event)
  lost : ∀ callId toolName source state, failed (.store source) state →
    failed (.receiptPersistenceUnknown callId toolName source) state
  fail : ∀ (α : Type) (error : RuntimeError) (reason : String), error.FailsTurn →
    contract.Carries invariant failed (do
      rt.failTurn turn.threadId turn.turnId reason
      throw error : Attempt RuntimeError α)
  cancel : ∀ α : Type, contract.Carries invariant failed (do
    let _ ← rt.append turn.threadId (some turn.turnId) .turnCancelled
    throw (.cancelled turn.turnId) : Attempt RuntimeError α)

/-- What a turn relies on to carry an invariant, and to stop as `failed` says. -/
structure TurnRules (contract : Contract Operation Answer State) (rt : AgentRuntime) (turn : Turn)
    (invariant : State → Prop) (failed : RuntimeError → State → Prop) : Prop where
  seam : ∀ op : Operation, op.IsSeam → op.Follows rt turn →
    contract.Carries invariant failed (perform op)
  append : ∀ event : RuntimeEvent, ¬ event.IsTerminal →
    contract.Carries invariant failed (rt.append turn.threadId (some turn.turnId) event)
  lost : ∀ callId toolName source state, failed (.store source) state →
    failed (.receiptPersistenceUnknown callId toolName source) state
  fail : ∀ (α : Type) (error : RuntimeError) (reason : String), error.FailsTurn →
    contract.Carries invariant failed (do
      rt.failTurn turn.threadId turn.turnId reason
      throw error : Attempt RuntimeError α)
  cancel : ∀ α : Type, contract.Carries invariant failed (do
    let _ ← rt.append turn.threadId (some turn.turnId) .turnCancelled
    throw (.cancelled turn.turnId) : Attempt RuntimeError α)

/-- An invariant that every operation and every append keeps. -/
theorem TurnRules.of_keeps {contract : Contract Operation Answer State} {rt : AgentRuntime}
    {turn : Turn} {invariant : State → Prop}
    (seam : ∀ op : Operation, op.IsSeam → op.Follows rt turn →
      contract.Keeps invariant (perform op : Attempt RuntimeError (Answer op)))
    (append : ∀ event, contract.Keeps invariant
      (rt.append turn.threadId (some turn.turnId) event)) :
    TurnRules contract rt turn invariant (fun _ => invariant) where
  seam := seam
  append event _ := append event
  lost _ _ _ _ holds := holds
  fail _ error reason _ := by
    apply Keeps.bind
    · exact Keeps.bind (append _) fun _ => Keeps.pure _
    · intro _
      exact Keeps.throw _
  cancel _ := Keeps.bind (append _) fun _ => Keeps.throw _

theorem TurnRules.hooks {contract : Contract Operation Answer State} {invariant : State → Prop}
    {failed : RuntimeError → State → Prop} {point : String}
    {ask : Hook → Attempt RuntimeError (Except String Unit)}
    {hooks : List Hook} (asks : ∀ hook, contract.Carries invariant failed (ask hook)) :
    contract.Carries invariant failed (runHooks point ask hooks) := by
  induction hooks with
  | nil => exact Carries.pure _
  | cons hook hooks ih =>
    apply Carries.bind (asks hook)
    intro answer
    cases answer with
    | error reason => exact Carries.pure _
    | ok => exact ih

namespace TurnParts

variable {contract : Contract Operation Answer State} {rt : AgentRuntime} {turn : Turn}
variable {invariant : State → Prop} {failed : RuntimeError → State → Prop} {iteration : Nat}
variable (parts : TurnParts contract rt turn invariant failed)

include parts

theorem ask {α : Type} (op : Operation) (seam : op.IsSeam) (other : ¬ op.IsModelRequest)
    (follows : op.Follows rt turn) {next : Answer op → Attempt RuntimeError α}
    (continues : ∀ answer, contract.Carries invariant failed (next answer)) :
    contract.Carries invariant failed (perform op >>= next) :=
  Carries.bind (parts.seam op seam other follows) continues

theorem recordReceipt {receipt : ToolReceipt} {executionCrossed : Bool} :
    contract.Carries invariant failed
      (rt.recordReceipt turn.threadId turn.turnId receipt executionCrossed) := by
  intro state holds
  apply Tries.bind
  apply Tries.outcome
  apply Tries.mono (parts.append (.toolReceiptRecorded receipt) id state holds)
  · intro envelope state' holds'
    exact Tries.pure holds'
  · intro error state' stops
    cases error with
    | store source =>
      by_cases crossed : executionCrossed = true
      · simp only [crossed, ↓reduceIte]
        exact Tries.throw (parts.lost _ _ _ _ stops)
      · simp only [crossed]
        exact Tries.throw stops
    | _ => exact Tries.throw stops

theorem recordHookFailure {point : HookPoint} {error : HookError} :
    contract.Carries invariant failed
      (rt.recordHookFailure turn.threadId turn.turnId point error) :=
  Carries.bind (parts.append _ id) fun _ => Carries.pure _

theorem denyCalls {reason : String} {calls : List ToolCall} :
    contract.Carries invariant failed
      (rt.denyCalls turn.threadId turn.turnId reason calls) := by
  induction calls with
  | nil => exact Carries.pure _
  | cons toolCall calls ih => exact Carries.bind parts.recordReceipt fun _ => ih

theorem cancelTurn {α : Type} {calls : List ToolCall} : contract.Carries invariant failed
    (rt.cancelTurn turn.threadId turn.turnId calls : Attempt RuntimeError α) :=
  Carries.bind parts.denyCalls fun _ => parts.cancel α

/-- A receipt that ends the handling of a call. -/
theorem settle {receipt : ToolReceipt} {executionCrossed : Bool} :
    contract.Carries invariant failed (do
      rt.recordReceipt turn.threadId turn.turnId receipt executionCrossed
      return receipt) :=
  Carries.bind parts.recordReceipt fun _ => Carries.pure _

theorem resolveApproval {toolCall : ToolCall} {prepared : PreparedToolCall} :
    contract.Carries invariant failed (rt.resolveApproval turn toolCall prepared) := by
  apply Carries.bind (parts.append _ id)
  intro _
  apply parts.ask (.requestApproval _) trivial id trivial
  intro answer
  apply Carries.bind (parts.append _ id)
  intro _
  split
  · split
    · exact Carries.pure _
    · exact Carries.pure _
  · exact Carries.pure _

theorem executePrepared {tool : Tool} {prepared : PreparedToolCall}
    {context : ToolExecutionContext} : contract.Carries invariant failed
      (rt.executePrepared turn iteration tool prepared context) := by
  apply Carries.bind (parts.append _ id)
  intro _
  apply parts.ask (.execute ..) trivial id trivial
  intro answer
  apply Carries.bind parts.recordReceipt
  intro _
  apply Carries.bind (TurnRules.hooks fun hook => parts.seam (.afterTool ..) trivial id trivial)
  intro accepted
  cases accepted with
  | error error =>
    apply Carries.bind parts.recordHookFailure
    intro _
    exact parts.fail _ _ _ trivial
  | ok => exact Carries.pure _

theorem runPrepared {toolCall : ToolCall} {access : Access} {tool : Tool}
    {prepared : PreparedToolCall} {context : ToolExecutionContext} :
    contract.Carries invariant failed
      (rt.runPrepared turn iteration toolCall access tool prepared context) := by
  apply Carries.bind (parts.append _ id)
  intro _
  apply Carries.bind (TurnRules.hooks fun hook => parts.seam (.beforeTool ..) trivial id trivial)
  intro accepted
  cases accepted with
  | error error =>
    apply Carries.bind parts.recordHookFailure
    intro _
    exact parts.settle
  | ok =>
    by_cases asks : access = .ask
    · simp only [asks, ↓reduceIte]
      apply Carries.bind parts.resolveApproval
      intro refusal
      cases refusal with
      | some reason => exact parts.settle
      | none => exact parts.executePrepared
    · simp only [asks, ↓reduceIte]
      exact parts.executePrepared

theorem handleToolCall {toolCall : ToolCall} : contract.Carries invariant failed
    (rt.handleToolCall turn iteration toolCall) := by
  unfold AgentRuntime.handleToolCall
  dsimp only
  split
  next => exact parts.settle
  next tool registered =>
    split
    next => exact parts.settle
    next granted =>
      apply parts.ask (.prepare ..) trivial id ⟨registered, granted⟩
      intro answer
      split
      · exact parts.settle
      · split
        · exact parts.settle
        · exact parts.runPrepared

theorem runToolCalls {calls : List ToolCall} {transcript : List TranscriptMessage} :
    contract.Carries invariant failed (rt.runToolCalls turn iteration calls transcript) := by
  induction calls generalizing transcript with
  | nil => exact Carries.pure _
  | cons toolCall calls ih =>
    apply parts.ask (.isCancelled _) trivial id trivial
    intro cancelled
    cases cancelled with
    | true => exact parts.cancelTurn
    | false =>
      apply Carries.bind parts.handleToolCall
      intro receipt
      exact ih

/-! ## Iterations

For an invariant that also survives the completion of the turn. -/

variable (completes : ∀ content, contract.Carries invariant failed
  (rt.append turn.threadId (some turn.turnId) (.turnCompleted content)))

include completes

theorem respond {transcript : List TranscriptMessage} {seen : TreeSet CallId}
    {response : ModelResponse}
    {next : List TranscriptMessage → TreeSet CallId → Attempt RuntimeError TurnOutcome}
    (continues : ∀ transcript seen, contract.Carries invariant failed (next transcript seen)) :
    contract.Carries invariant failed
      (rt.respond turn iteration transcript seen response next) := by
  unfold AgentRuntime.respond
  split
  · exact parts.fail _ _ _ trivial
  · apply Carries.bind (parts.append _ id)
    intro _
    dsimp only
    split
    next stops =>
      apply Carries.bind parts.denyCalls
      intro _
      exact parts.fail _ _ _ (stopError_fails stops)
    next =>
      apply parts.ask (.isCancelled _) trivial id trivial
      intro cancelled
      cases cancelled with
      | true => exact parts.cancelTurn
      | false =>
        by_cases finished : response.toolCalls.isEmpty = true
        · simp only [finished, ↓reduceIte]
          apply Carries.bind (completes _)
          intro _
          exact Carries.pure _
        · simp only [finished]
          apply Carries.bind parts.runToolCalls
          intro transcript
          exact continues _ _

omit completes

/-! The contexts that model requests are made of, as far as they fit. -/

variable {fits : CompiledContext → Prop}
variable (sends : ∀ iteration compiled control, fits compiled → contract.Carries invariant failed
  (perform (.completeControlled
    ⟨turn.threadId, turn.turnId, iteration, compiled, turn.visibleTools⟩ control)))

include sends

theorem requestModel {compiled : CompiledContext} (fit : fits compiled)
    {received : ModelResponse → Attempt RuntimeError TurnOutcome}
    (continues : ∀ response, contract.Carries invariant failed (received response)) :
    contract.Carries invariant failed (rt.requestModel turn iteration compiled received) := by
  apply Carries.bind (parts.append _ id)
  intro _
  apply Carries.bind (parts.append _ id)
  intro _
  apply Carries.bind (sends iteration compiled _ fit)
  intro answer
  cases answer with
  | error error =>
    apply parts.ask (.isCancelled _) trivial id trivial
    intro cancelled
    cases cancelled with
    | true => exact parts.cancelTurn
    | false => exact parts.fail _ _ _ trivial
  | ok response => exact continues response

variable (compiles : ∀ transcript state, invariant state →
  contract.Tries (perform (.compile ⟨turn.threadId, turn.turnId, transcript⟩))
    (fun answer state' => invariant state' ∧ ∀ compiled, answer = .ok compiled → fits compiled)
    failed state)

include completes compiles

theorem turnLoop {remaining : Nat} {transcript : List TranscriptMessage}
    {seen : TreeSet CallId} : contract.Carries invariant failed
      (rt.turnLoop turn remaining iteration transcript seen) := by
  induction remaining generalizing iteration transcript seen with
  | zero => exact parts.fail _ _ _ trivial
  | succ remaining ih =>
    apply parts.ask (.isCancelled _) trivial id trivial
    intro cancelled
    cases cancelled with
    | true => exact parts.cancelTurn
    | false =>
      intro state holds
      apply Tries.bind
      apply Tries.mono (compiles transcript state holds) _ fun _ _ stops => stops
      intro answer state' ⟨holds', fit⟩
      cases answer with
      | error error => exact parts.fail _ (.context error) error.toString trivial state' holds'
      | ok compiled =>
        refine Carries.bind (TurnRules.hooks fun hook =>
          parts.seam (.beforeModel ..) trivial id trivial) ?_ state' holds'
        intro accepted
        cases accepted with
        | error error =>
          apply Carries.bind parts.recordHookFailure
          intro _
          exact parts.fail _ _ _ trivial
        | ok =>
          apply parts.requestModel sends (fit compiled rfl)
          intro response
          apply parts.respond completes
          intro transcript seen
          exact ih

end TurnParts

namespace TurnRules

variable {contract : Contract Operation Answer State} {rt : AgentRuntime} {turn : Turn}
variable {invariant : State → Prop} {failed : RuntimeError → State → Prop} {iteration : Nat}
variable (rules : TurnRules contract rt turn invariant failed)

include rules

theorem parts : TurnParts contract rt turn invariant failed where
  seam op seam _ follows := rules.seam op seam follows
  append := rules.append
  lost := rules.lost
  fail := rules.fail
  cancel := rules.cancel

theorem recordHookFailure {point : HookPoint} {error : HookError} :
    contract.Carries invariant failed
      (rt.recordHookFailure turn.threadId turn.turnId point error) :=
  rules.parts.recordHookFailure

theorem denyCalls {reason : String} {calls : List ToolCall} :
    contract.Carries invariant failed
      (rt.denyCalls turn.threadId turn.turnId reason calls) := rules.parts.denyCalls

theorem runToolCalls {calls : List ToolCall} {transcript : List TranscriptMessage} :
    contract.Carries invariant failed (rt.runToolCalls turn iteration calls transcript) :=
  rules.parts.runToolCalls

theorem turnLoop (completes : ∀ content, contract.Carries invariant failed
      (rt.append turn.threadId (some turn.turnId) (.turnCompleted content)))
    {remaining : Nat} {transcript : List TranscriptMessage} {seen : TreeSet CallId} :
    contract.Carries invariant failed
      (rt.turnLoop turn remaining iteration transcript seen) := by
  apply @TurnParts.turnLoop _ _ _ _ _ _ _ rules.parts completes fun _ => True
  · intro iteration compiled control _
    exact rules.seam (.completeControlled ..) trivial rfl
  · intro transcript state holds
    apply Tries.mono (rules.seam (.compile _) trivial trivial state holds)
    · intro answer state' holds'
      exact ⟨holds', fun _ _ => trivial⟩
    · intro error state' stops
      exact stops

end TurnRules

end Nausicaa.Core
