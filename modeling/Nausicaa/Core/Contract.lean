import Nausicaa.Core.World

/-! # What a call may ask, and what it can rely on

The contract between one call of the runtime and everything around it.  A call
sees its own history and, while it holds the guard of a thread, that thread's log;
`permit` says which operation it may issue there and `effect` what an answer does.

`discipline` is the ownership argument behind it: guards are exclusive, only the
holder of a thread appends to its log, and a new thread id is nobody else's.
-/

namespace Nausicaa.Core

open Interaction (Adjacent Built Contract Discipline Machine)

/-! ## Observations -/

def IsLoad : Observation → Prop
  | ⟨.loadThread _, _⟩ => True
  | _ => False

def IsInsert : Observation → Prop
  | ⟨.activeInsert _, _⟩ => True
  | _ => False

def IsExecution : Observation → Prop
  | ⟨.execute .., _⟩ => True
  | _ => False

def IsFailedAppend : Observation → Prop
  | ⟨.storeAppend .., .error _⟩ => True
  | _ => False

instance : DecidablePred IsFailedAppend := fun observation => by
  obtain ⟨op, answer⟩ := observation
  cases op with
  | storeAppend => cases answer <;> unfold IsFailedAppend <;> infer_instance
  | _ => exact isFalse id

/-- An observer was told of an event. -/
def IsNote : Observation → Prop
  | ⟨.onEvent .., _⟩ => True
  | _ => False

def IsQuiet (observation : Observation) : Prop :=
  ¬ IsInsert observation ∧ ¬ IsExecution observation ∧ ¬ IsFailedAppend observation

def Operation.IsAppend : Operation → Prop
  | .storeAppend .. => True
  | _ => False

/-- A model request, a preparation or an execution. -/
def Operation.IsOutward : Operation → Prop
  | .completeControlled .. | .prepare .. | .execute .. => True
  | _ => False

section Histories

variable (history : List Observation)

/-- No append failed so far. -/
def Calm : Prop := ∀ observation ∈ history, ¬ IsFailedAppend observation

/-- The call found its thread active. -/
def FoundActive (threadId : ThreadId) : Prop :=
  (⟨.activeInsert threadId, .ok false⟩ : Observation) ∈ history

/-- The turn id was in the log that the call loaded as it got the thread. -/
def FoundTurn (threadId : ThreadId) (turnId : TurnId) : Prop :=
  ∃ events, Adjacent history ⟨.activeInsert threadId, .ok true⟩ ⟨.loadThread threadId, .ok events⟩ ∧
    ∃ envelope ∈ events, envelope.turnId = some turnId

/-- The last thing that happened is an execution. -/
def Executing (prepared : PreparedToolCall) (context : ToolExecutionContext) : Prop :=
  ∃ tool answer, history.getLast? = some ⟨.execute tool prepared context, answer⟩

/-- The store refused what followed the execution of `prepared`. -/
def LostReceipt (prepared : PreparedToolCall) (source : StoreError) : Prop :=
  ∃ tool context answer threadId turnId event,
    Adjacent history ⟨.execute tool prepared context, answer⟩
      ⟨.storeAppend threadId turnId event, .error source⟩

end Histories

/-- The call runs this turn. -/
def Call.Serves (threadId : ThreadId) (turnId : TurnId) : Call → Prop
  | .runTurn threadId' turnId' _ _ => threadId' = threadId ∧ turnId' = turnId
  | _ => False

/-- What a call did so far allows `op`: one acquisition and only after loads, no
append by a rejected call, nothing outward after a failed append, and nothing but
its receipt after an execution. -/
structure Orderly (call : Call) (before : List Observation) (op : Operation) : Prop where
  acquires : ∀ threadId, op = .activeInsert threadId → ∀ observation ∈ before, IsLoad observation
  appends : op.IsAppend → (∀ threadId, ¬ FoundActive before threadId) ∧
    ∀ threadId turnId, call.Serves threadId turnId → ¬ FoundTurn before threadId turnId
  outward : op.IsOutward → Calm before
  records : ∀ prepared context, Executing before prepared context → ∃ receipt,
    op = .storeAppend context.threadId (some context.turnId) (.toolReceiptRecorded receipt) ∧
      receipt.callId = prepared.callId ∧ receipt.toolName = prepared.action.toolName

/-! ## The state of one call -/

/-- What a call sees: what it owns, and the log of the thread whose guard it holds. -/
structure Local where
  own : Own
  log : List EventEnvelope

namespace Local

/-- More envelopes in the log and more observations in the history. -/
def extend (state : Local) (envelopes : List EventEnvelope) (observations : List Observation) :
    Local :=
  ⟨{ state.own with history := state.own.history ++ observations }, state.log ++ envelopes⟩

variable (state : Local) (envelopes envelopes' : List EventEnvelope)
variable (observations observations' : List Observation)

@[simp] theorem extend_held : (state.extend envelopes observations).own.held = state.own.held := rfl

@[simp] theorem extend_left : (state.extend envelopes observations).own.left = state.own.left := rfl

@[simp] theorem extend_history : (state.extend envelopes observations).own.history =
    state.own.history ++ observations := rfl

@[simp] theorem extend_log : (state.extend envelopes observations).log =
    state.log ++ envelopes := rfl

@[simp] theorem extend_extend :
    (state.extend envelopes observations).extend envelopes' observations' =
      state.extend (envelopes ++ envelopes') (observations ++ observations') := by
  simp [extend]

end Local

/-- How a call sees the world. -/
def World.view (world : World) (own : Own) : Local where
  own := own
  log := match own.held with
    | .guard threadId => world.log threadId
    | .nothing | .fresh _ => []

/-- The approval that an `Ask` tool needs: asked about exactly the prepared action,
granted for it, and both the last events of `log`. -/
def ApprovedAsPrepared (log : TurnLog) (since : List Observation) (turnId : TurnId)
    (toolCall : ToolCall) (prepared : PreparedToolCall) : Prop :=
  ∃ request entries, request.callId = toolCall.id ∧ request.action = prepared.action ∧
    (⟨.requestApproval request, .ok (.approved prepared.action)⟩ : Observation) ∈ since ∧
    log = entries ++ [(turnId, .approvalRequested request),
      (turnId, .approvalResolved toolCall.id (.approved prepared.action))]

/-- The call of the model that `prepared` belongs to, and what was answered `since` it
was prepared: nothing was executed and every hook accepted it. -/
structure Cleared (rt : AgentRuntime) (call : Call) (state : Local) (tool : Tool)
    (prepared : PreparedToolCall) (context : ToolExecutionContext) (toolCall : ToolCall)
    (since : List Observation) : Prop where
  serves : call.Serves context.threadId context.turnId
  requested : Requested (turnLog state.log) context.turnId .toolUse toolCall
  registered : rt.tools.get toolCall.name = some tool
  sameId : prepared.callId = toolCall.id
  sameName : prepared.action.toolName = toolCall.name
  access : effectiveAccess rt.policy rt.policyContext rt.parentCapabilities toolCall.name ≠ .deny
  answered : ∃ before, state.own.history =
    before ++ ⟨.prepare tool toolCall context, .ok prepared⟩ :: since
  first : ∀ observation ∈ since, ¬ IsExecution observation
  hooks : ∀ hook ∈ rt.hooks, ∃ iteration,
    (⟨.beforeTool hook ⟨context.threadId, context.turnId, iteration⟩ prepared, .ok ()⟩ :
      Observation) ∈ since

/-- What stands behind an execution: the call was cleared, its start was just stored,
and before that the approval it needs. -/
structure Authorized (rt : AgentRuntime) (call : Call) (state : Local) (tool : Tool)
    (prepared : PreparedToolCall) (context : ToolExecutionContext) (toolCall : ToolCall)
    (since : List Observation) : Prop
    extends Cleared rt call state tool prepared context toolCall since where
  started : ∃ before envelope notes, state.own.history =
    before ++ ⟨.storeAppend context.threadId (some context.turnId) (.toolExecutionStarted prepared),
      .ok envelope⟩ :: notes ∧ ∀ observation ∈ notes, IsNote observation
  logged : ∃ log, turnLog state.log = log ++ [(context.turnId, .toolExecutionStarted prepared)] ∧
    (effectiveAccess rt.policy rt.policyContext rt.parentCapabilities toolCall.name = .ask →
      ApprovedAsPrepared log since context.turnId toolCall prepared)

/-! ## The contract -/

section Contract

variable (rt : AgentRuntime) (strict : Prop) (call : Call)

/-- What a call may ask in a state, besides being orderly.  Under `strict` a turn is
only ended once every accepted call has its receipt. -/
def permit (state : Local) : Operation → Prop
  | .newThreadId => state.own.held = .nothing
  | .storeAppend threadId none event =>
    state.own.held = .fresh threadId ∧ event = .threadStarted
  | .storeAppend threadId (some turnId) event =>
    state.own.held = .guard threadId ∧
      (Conforms (turnLog state.log) → Allowed (turnLog state.log) (turnId, event)) ∧
      (strict → event.IsTerminal → Settled (turnLog state.log))
  | .activeInsert threadId =>
    state.own.held = .nothing ∧
      ∃ events, (⟨.loadThread threadId, .ok events⟩ : Observation) ∈ state.own.history ∧ events ≠ []
  | .activeRemove threadId => state.own.held = .guard threadId
  | .afterTool _ context _ => state.own.held = .guard context.threadId
  | .compile input =>
    state.own.held = .guard input.threadId ∧ Settled (turnLog state.log) ∧
      input.transcript = transcriptFromEvents state.log
  | .completeControlled request _ =>
    state.own.held = .guard request.threadId ∧ Settled (turnLog state.log)
  | .execute tool prepared context =>
    state.own.held = .guard context.threadId ∧
      ∃ toolCall since, Authorized rt call state tool prepared context toolCall since
  | _ => True

/-- An after-tool rejection finds every accepted call of its turn answered. -/
def ClosingRejection (log : ThreadId → List EventEnvelope) : (op : Operation) → Answer op → Prop
  | .afterTool _ context _, .error _ =>
    ∀ toolCall, Accepted (turnLog (log context.threadId)) context.turnId toolCall →
      Receipted (turnLog (log context.threadId)) context.turnId toolCall.id
  | _, _ => True

/-- What an answer does to what the call owns and sees. -/
def effect (state : Local) : (op : Operation) → Answer op → Local → Prop
  | .newThreadId, threadId, state' =>
    state' = ⟨{ state.own with held := .fresh threadId }, []⟩
  | .storeAppend threadId turnId event, .ok envelope, state' =>
    (envelope.threadId = threadId ∧ envelope.turnId = turnId ∧ envelope.event = event) ∧
      (state.own.held = .guard threadId → state' = ⟨state.own, state.log ++ [envelope]⟩) ∧
      (state.own.held = .fresh threadId → state' = ⟨{ state.own with held := .nothing }, []⟩)
  | .loadThread threadId, .ok events, state' =>
    state' = state ∧ (state.own.held = .guard threadId → events = state.log)
  | .activeInsert threadId, .ok true, state' =>
    ∃ log, state' = ⟨{ state.own with held := .guard threadId }, log⟩
  | .activeInsert _, .error _, _ => False
  | .activeRemove threadId, _, state' =>
    state' = ⟨{ state.own with held := .nothing, left := some (threadId, state.log) }, []⟩
  | .afterTool hook context receipt, answer, state' =>
    state' = state ∧
      (strict → ClosingRejection (fun _ => state.log) (.afterTool hook context receipt) answer)
  | _, _, state' => state' = state

/-- The contract of a call of the runtime. -/
def contract : Contract Operation Answer Local where
  permit state op := Orderly call state.own.history op ∧ permit rt strict call state op
  step state op answer state' :=
    ∃ state'', effect strict state op answer state'' ∧ state' = state''.extend [] [⟨op, answer⟩]

/-- The machine of the runtime; under `strict` without the after-tool rejections that
come before the last call of a response. -/
def runtimeMachine : Machine Operation Answer World Own :=
  machine.restrict fun world op answer => strict → ClosingRejection world.log op answer

/-- The state a call starts in. -/
def Local.idle : Local := ⟨machine.idle, []⟩

end Contract

end Nausicaa.Core
