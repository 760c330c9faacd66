import Nausicaa.Core.Serving

/-! # What the handling of a tool call does

The code of `handle_tool_call` meets the contract: whatever hooks, tools, approvers
and the executor answer, it appends only allowed events, crosses the executor
boundary only with an authorized action, and leaves exactly one receipt for its call.
-/

namespace Nausicaa.Core

open Interaction (Adjacent Contract)
open Interaction.Contract (Meets Tries)
open Std (TreeSet)

section Hooks

variable {rt : AgentRuntime} {strict : Prop} {call : Call} {state : Local}
variable {point : String} {ask : Hook → Attempt RuntimeError (Except String Unit)}

@[simp] theorem Local.extend_nil (state : Local) : state.extend [] [] = state := by
  simp [Local.extend]

/-- The hooks are asked in order; `seen` is what one answer shows. -/
theorem runHooks_after_tries (point : String) {hooks : List Hook} (before : List Observation)
    (seen : Hook → Except String Unit → Observation → Prop)
    {ok : Except HookError Unit → Local → Prop} {failed : RuntimeError → Local → Prop}
    (quiet : ∀ observation ∈ before, IsQuiet observation)
    (asks : ∀ hook earlier, (∀ observation ∈ earlier, IsQuiet observation) →
      (contract rt strict call).Tries (ask hook)
        (fun answer state' => ∃ observation, IsQuiet observation ∧ seen hook answer observation ∧
          state' = state.extend [] (earlier ++ [observation]))
        failed (state.extend [] earlier))
    (accepted : ∀ after, (∀ observation ∈ before ++ after, IsQuiet observation) →
      (∀ hook ∈ hooks, ∃ observation ∈ after, seen hook (.ok ()) observation) →
      ok (.ok ()) (state.extend [] (before ++ after)))
    (rejected : ∀ error after, (∀ observation ∈ before ++ after, IsQuiet observation) →
      (∃ hook reason observation, seen hook (.error reason) observation) →
      ok (.error error) (state.extend [] (before ++ after))) :
    (contract rt strict call).Tries (runHooks point ask hooks) ok failed
      (state.extend [] before) := by
  induction hooks generalizing before with
  | nil => exact Tries.pure (by simpa using accepted [] (by simpa using quiet) (by simp))
  | cons hook hooks ih =>
    refine Tries.bind (Tries.mono (asks hook before quiet) ?_ (fun _ _ holds => holds))
    intro answer state' ⟨observation, quiet', shown, same⟩
    subst same
    have quiet'' : ∀ observation' ∈ before ++ [observation], IsQuiet observation' := by
      intro observation' member
      cases List.mem_append.mp member with
      | inl earlier => exact quiet observation' earlier
      | inr last => rw [List.mem_singleton.mp last]; exact quiet'
    cases answer with
    | error reason =>
      exact Tries.pure (rejected _ [observation] quiet'' ⟨hook, reason, observation, shown⟩)
    | ok accepts =>
      refine ih _ quiet'' ?_ ?_
      · intro after all each
        rw [List.append_assoc] at all ⊢
        refine accepted _ all ?_
        intro hook' member
        cases List.mem_cons.mp member with
        | inl first => exact ⟨observation, by simp, first ▸ shown⟩
        | inr later =>
          obtain ⟨observation', found, shown'⟩ := each hook' later
          exact ⟨observation', List.mem_cons_of_mem _ found, shown'⟩
      · intro error after all some
        rw [List.append_assoc] at all ⊢
        exact rejected error _ all some

theorem runHooks_tries {hooks : List Hook} (seen : Hook → Except String Unit → Observation → Prop)
    {ok : Except HookError Unit → Local → Prop} {failed : RuntimeError → Local → Prop}
    (asks : ∀ hook earlier, (∀ observation ∈ earlier, IsQuiet observation) →
      (contract rt strict call).Tries (ask hook)
        (fun answer state' => ∃ observation, IsQuiet observation ∧ seen hook answer observation ∧
          state' = state.extend [] (earlier ++ [observation]))
        failed (state.extend [] earlier))
    (accepted : ∀ after, (∀ observation ∈ after, IsQuiet observation) →
      (∀ hook ∈ hooks, ∃ observation ∈ after, seen hook (.ok ()) observation) →
      ok (.ok ()) (state.extend [] after))
    (rejected : ∀ error after, (∀ observation ∈ after, IsQuiet observation) →
      (∃ hook reason observation, seen hook (.error reason) observation) →
      ok (.error error) (state.extend [] after)) :
    (contract rt strict call).Tries (runHooks point ask hooks) ok failed state := by
  have run := runHooks_after_tries point [] seen (by simp) asks accepted rejected
  rwa [Local.extend_nil] at run

end Hooks

section Execution

variable {rt : AgentRuntime} {strict : Prop} {call : Call} {state : Local} {turn : Turn}
variable {stop : StopReason} {seen : TreeSet CallId} {waiting : List ToolCall} {transcript : List TranscriptMessage}
variable {tool : Tool} {toolCall : ToolCall} {prepared : PreparedToolCall}
variable {context : ToolExecutionContext} {since more : List Observation}
variable {envelopes : List EventEnvelope} {iteration : Nat}

/-- A cleared call stays cleared while nothing is executed. -/
theorem Cleared.extend (cleared : Cleared rt call state tool prepared context toolCall since)
    (quiet : ∀ observation ∈ more, IsQuiet observation) :
    Cleared rt call (state.extend envelopes more) tool prepared context toolCall (since ++ more) where
  serves := cleared.serves
  requested := by simpa using cleared.requested.append (turnLog envelopes)
  registered := cleared.registered
  sameId := cleared.sameId
  sameName := cleared.sameName
  access := cleared.access
  answered := by
    obtain ⟨before, same⟩ := cleared.answered
    exact ⟨before, by simp [same]⟩
  first observation member := by
    cases List.mem_append.mp member with
    | inl earlier => exact cleared.first observation earlier
    | inr later => exact (quiet observation later).2.1
  hooks hook member := by
    obtain ⟨iteration, found⟩ := cleared.hooks hook member
    exact ⟨iteration, List.mem_append_left _ found⟩

/-- The exact action is approved, or the reason it is denied for is known. -/
theorem resolveApproval_tries {ok : Option String → Local → Prop}
    (serving : Serving call turn.threadId turn.turnId stop seen waiting transcript state)
    (denied : ∀ reason state', Serving call turn.threadId turn.turnId stop seen waiting transcript state' →
      ok (some reason) state')
    (approved : ∀ envelopes observations,
      Serving call turn.threadId turn.turnId stop seen waiting transcript
        (state.extend envelopes observations) →
      (∀ observation ∈ observations, IsQuiet observation) →
      ApprovedAsPrepared (turnLog (state.log ++ envelopes)) observations turn.turnId toolCall
        prepared →
      ok none (state.extend envelopes observations)) :
    (contract rt strict call).Tries (rt.resolveApproval turn toolCall prepared) ok
      (StoppedTurn call turn.threadId turn.turnId) state := by
  have ofTurn : ∀ {state : Local} {event : RuntimeEvent},
      Serving call turn.threadId turn.turnId stop seen waiting transcript state →
      (∃ request, event = .approvalRequested request) ∨
        (∃ callId decision, event = .approvalResolved callId decision) →
      Allowed (turnLog state.log) (turn.turnId, event) := by
    intro state event serving either
    refine allowed_of_inTurn serving.inTurn.current ?_
    obtain ⟨_, rfl⟩ | ⟨_, _, rfl⟩ := either <;> exact serving.inTurn.notEnded
  refine Tries.bind (serving.skip_tries (ofTurn serving (.inl ⟨_, rfl⟩)) rfl rfl (by simp)
    (by simp) id ?_)
  intro envelope observations serving₁ logged quiet
  refine Tries.bind (serving₁.ask_tries trivial (fun _ => ⟨id, id, id⟩) (fun _ _ same => same) ?_
    (by simp))
  intro answer serving₂
  refine Tries.bind (serving₂.skip_tries (ofTurn serving₂ (.inr ⟨_, _, rfl⟩)) rfl rfl
    (by simp) (by simp) id ?_)
  intro envelope' observations' serving₃ logged' quiet'
  have serving₃ : Serving call turn.threadId turn.turnId stop seen waiting transcript
      (state.extend [envelope, envelope']
        (observations ++ ⟨.requestApproval _, answer⟩ :: observations')) := by
    simpa using serving₃
  have quiets : ∀ observation ∈ observations ++
      (⟨.requestApproval _, answer⟩ : Observation) :: observations', IsQuiet observation := by
    intro observation member
    obtain first | here | later := by simpa using member
    · exact quiet observation first
    · rw [here]; exact ⟨id, id, id⟩
    · exact quiet' observation later
  have entries := turnLog_append state.log ([envelope] ++ [envelope'])
  rw [turnLog_append [envelope], logged, logged'] at entries
  have same : (((state.extend [envelope] observations).extend []
      [⟨.requestApproval _, answer⟩]).extend [envelope'] observations') =
      state.extend [envelope, envelope']
        (observations ++ ⟨.requestApproval _, answer⟩ :: observations') := by
    simp
  rw [same]
  split
  next action resolved =>
    split
    next exact_ =>
      subst exact_
      -- Only an answer of the provider can be an approval.
      cases answer with
      | error error => cases resolved
      | ok decision =>
        have decision_eq : decision = .approved prepared.action := resolved
        subst decision_eq
        exact Tries.pure (approved _ _ serving₃ quiets ⟨_, turnLog state.log, rfl, rfl, by simp,
          entries⟩)
    next different => exact Tries.pure (denied _ _ serving₃)
  next reason resolved => exact Tries.pure (denied _ _ serving₃)

/-- The state between an execution and its receipt. -/
structure Executed (call : Call) (threadId : ThreadId) (turnId : TurnId) (stop : StopReason)
    (seen : TreeSet CallId) (waiting : List ToolCall) (transcript : List TranscriptMessage) (tool : Tool)
    (prepared : PreparedToolCall) (context : ToolExecutionContext) (state : Local) : Prop where
  guard : state.own.held = .guard threadId
  ofTurn : context.threadId = threadId ∧ context.turnId = turnId
  progressing : Progressing call state.own.history
  executing : ∃ answer, state.own.history.getLast? = some ⟨.execute tool prepared context, answer⟩
  inTurn : InTurn (turnLog state.log) turnId stop waiting (some prepared)
  started : Started (turnLog state.log) turnId prepared
  seen : ∀ toolCall, Accepted (turnLog state.log) turnId toolCall → toolCall.id ∈ seen
  shown : transcriptFromEvents state.log = transcript

/-- The receipt of what was executed is the next thing stored, or its loss is reported. -/
theorem Executed.recordReceipt_tries {threadId : ThreadId} {turnId : TurnId} {receipt : ToolReceipt}
    {ok : Unit → Local → Prop}
    (executed : Executed call threadId turnId stop seen (toolCall :: waiting) transcript tool prepared
      context state)
    (sameCall : prepared.callId = toolCall.id) (sameName : prepared.action.toolName = toolCall.name)
    (sameId : receipt.callId = prepared.callId)
    (named : receipt.toolName = prepared.action.toolName)
    (action : receipt.action = some prepared.action) (executes : receipt.status ≠ .denied)
    (recorded : ∀ state', Serving call threadId turnId stop seen waiting
      (transcript ++ [.tool receipt]) state' → ok () state') :
    (contract rt strict call).Tries (rt.recordReceipt threadId turnId receipt true) ok
      (StoppedTurn call threadId turnId) state := by
  obtain ⟨rfl, rfl⟩ := executed.ofTurn
  obtain ⟨answer, last⟩ := executed.executing
  have only : ∀ prepared' context', Executing state.own.history prepared' context' →
      prepared' = prepared ∧ context' = context := by
    intro prepared' context' executing
    obtain ⟨tool', answer', last'⟩ := executing
    cases last.symm.trans last'
    exact ⟨rfl, rfl⟩
  have orderly : Orderly call state.own.history
      (.storeAppend context.threadId (some context.turnId) (.toolReceiptRecorded receipt)) := {
    acquires := by simp
    appends := fun _ => ⟨executed.progressing.notActive, executed.progressing.newTurn⟩
    outward := fun outward => outward.elim
    records := by
      intro prepared' context' executing
      obtain ⟨rfl, rfl⟩ := only prepared' context' executing
      exact ⟨receipt, rfl, sameId, named⟩ }
  have truthful : Truthful (turnLog state.log) context.turnId receipt :=
    ⟨fun denied => absurd denied executes,
      fun _ => ⟨prepared, executed.started, sameId.symm, action⟩⟩
  have allowed := executed.inTurn.allowed_receipt List.mem_cons_self (sameId.trans sameCall)
    (named.trans sameName) truthful
  have nonterminal : ¬ (RuntimeEvent.toolReceiptRecorded receipt).IsTerminal := id
  have stored : (contract rt strict call).Tries
      (rt.append context.threadId (some context.turnId) (.toolReceiptRecorded receipt))
      (fun _ => Serving call context.threadId context.turnId stop seen waiting
        (transcript ++ [.tool receipt]))
      (fun error state' => ∃ source, error = .store source ∧
        StoppedTurn call context.threadId context.turnId
          (.receiptPersistenceUnknown receipt.callId receipt.toolName source) state') state := by
    refine append_tries executed.guard executed.progressing orderly
      ⟨executed.guard, fun _ => allowed, fun _ terminal => absurd terminal nonterminal⟩ ?_ ?_
    · intro envelope notes tagged same all
      have stored : IsQuiet ⟨.storeAppend context.threadId (some context.turnId)
        (.toolReceiptRecorded receipt), .ok envelope⟩ := ⟨id, id, id⟩
      have unhindered := (executed.progressing.unhindered stored).extend
        fun observation member => isQuiet_note (all observation member)
      exact {
        guard := executed.guard
        unhindered := by simpa using unhindered
        inTurn := by
          have runs : ∀ prepared', some prepared = some prepared' →
              prepared'.callId = toolCall.id := by
            intro prepared' same
            cases same
            exact sameCall
          simpa [turnLog_singleton tagged same] using
            executed.inTurn.receipt (sameId.trans sameCall) runs
        seen := by
          intro toolCall' accepted
          refine executed.seen toolCall' ?_
          simpa [turnLog_singleton tagged same, accepted_snoc, RuntimeEvent.acceptedCalls]
            using accepted
        shown := by
          simp [transcriptFromEvents, same, RuntimeEvent.message, ← executed.shown] }
    · intro source
      refine ⟨source, rfl, ⟨executed.guard, ?_, ?_, ?_, fun _ _ => not_executing_snoc id⟩, ?_⟩
      · intro threadId found
        exact executed.progressing.notActive threadId (by simpa [FoundActive] using found)
      · intro threadId turnId serves found
        exact absurd (foundTurn_snoc executed.progressing.checked found)
          (executed.progressing.newTurn threadId turnId serves)
      · intro prepared' source' lost
        cases lostReceipt_snoc lost with
        | inl earlier => exact absurd earlier executed.progressing.calm.not_lost
        | inr ends =>
          obtain ⟨⟨context', executing⟩, _, _, _, same⟩ := ends
          obtain ⟨rfl, _⟩ := only prepared' context' executing
          cases same
          rw [sameId, named]
      · simpa [EndsTurn] using executed.inTurn.notEnded
  refine Tries.bind (Tries.outcome (Tries.mono stored ?_ ?_))
  · intro envelope state' serving
    exact Tries.pure (recorded state' serving)
  · intro error state' lost
    obtain ⟨source, same, stopped⟩ := lost
    subst same
    exact Tries.throw stopped

/-- An execution is never denied, and its receipt names what was executed. -/
theorem executionReceipt_spec (prepared : PreparedToolCall) (answer : Except ToolError ToolOutput) :
    (executionReceipt prepared answer).callId = prepared.callId ∧
      (executionReceipt prepared answer).toolName = prepared.action.toolName ∧
      (executionReceipt prepared answer).action = some prepared.action ∧
      (executionReceipt prepared answer).status ≠ .denied := by
  cases answer with
  | ok output => exact ⟨rfl, rfl, rfl, by simp [executionReceipt, ToolReceipt.succeeded]⟩
  | error error =>
    cases error <;>
      simp [executionReceipt, ToolReceipt.unknown, ToolReceipt.failed]

/-- The after-tool hooks, and the end of the turn if one of them rejects. -/
theorem afterTool_tries {receipt : ToolReceipt} {ok : ToolReceipt → Local → Prop}
    (serving : Serving call turn.threadId turn.turnId stop seen waiting transcript state)
    (handled : ∀ state', Serving call turn.threadId turn.turnId stop seen waiting transcript state' →
      ok receipt state') :
    (contract rt strict call).Tries
      (do
        match ← runHooks "after_tool" (fun hook =>
          perform (.afterTool hook ⟨turn.threadId, turn.turnId, iteration⟩ receipt)) rt.hooks with
        | .error error =>
          rt.recordHookFailure turn.threadId turn.turnId .afterTool error
          rt.failTurn turn.threadId turn.turnId error.toString
          throw (.hook error)
        | .ok () => return receipt : Attempt RuntimeError ToolReceipt) ok
      (StoppedTurn call turn.threadId turn.turnId) state := by
  refine Tries.bind (runHooks_tries
    (fun _ answer _ => ∀ reason, answer = .error reason → strict → Settled (turnLog state.log))
    ?_ ?_ ?_)
  · intro hook earlier quiet
    have serving' := serving.observe quiet
    refine perform_tries (serving'.unhindered.orderly (by simp)) serving.guard ?_
    intro answer state' ⟨same, closing⟩
    subst same
    refine ⟨⟨.afterTool hook ⟨turn.threadId, turn.turnId, iteration⟩ receipt, answer⟩,
      ⟨id, id, id⟩, ?_, by simp⟩
    -- In a restricted run a rejection shows that no accepted call waits.
    intro reason rejected isStrict
    subst rejected
    have answered := closing isStrict
    have none := serving'.inTurn.waiting_eq_nil answered
    subst none
    exact serving.inTurn.settled
  · intro after quiet _
    exact Tries.pure (handled _ (serving.observe quiet))
  · intro error after quiet ⟨hook, reason, _, closing⟩
    refine (serving.observe quiet).rejectTurn_tries ?_
    simpa using closing reason rfl

/-- Crossing the executor boundary with a cleared and, where needed, approved call. -/
theorem executePrepared_tries {ok : ToolReceipt → Local → Prop}
    (serving : Serving call turn.threadId turn.turnId stop seen (toolCall :: waiting) transcript state)
    (cleared : Cleared rt call state tool prepared (rt.executionContext turn) toolCall since)
    (approved :
      effectiveAccess rt.policy rt.policyContext rt.parentCapabilities toolCall.name = .ask →
      ApprovedAsPrepared (turnLog state.log) since turn.turnId toolCall prepared)
    (handled : ∀ receipt state', Serving call turn.threadId turn.turnId stop seen waiting
      (transcript ++ [.tool receipt]) state' → ok receipt state') :
    (contract rt strict call).Tries
      (rt.executePrepared turn iteration tool prepared (rt.executionContext turn)) ok
      (StoppedTurn call turn.threadId turn.turnId) state := by
  have allowed := serving.inTurn.allowed_started List.mem_cons_self cleared.sameId cleared.sameName
  refine Tries.bind (serving.append_tries allowed (fun _ terminal => terminal.elim) ?_)
  intro envelope notes tagged same all
  obtain ⟨stored, isStored⟩ : ∃ stored : List Observation, stored =
    ⟨.storeAppend turn.threadId (some turn.turnId) (.toolExecutionStarted prepared),
      .ok envelope⟩ :: notes := ⟨_, rfl⟩
  rw [← isStored]
  have quiet : ∀ observation ∈ stored, IsQuiet observation := isStored ▸ quiet_stored all
  have unhindered := serving.unhindered.extend quiet
  have logged := turnLog_singleton tagged same
  have authorized : Authorized rt call (state.extend [envelope] stored) tool prepared
      (rt.executionContext turn) toolCall (since ++ stored) := {
    toCleared := cleared.extend quiet
    started := ⟨state.own.history, envelope, notes, by subst isStored; rfl, all⟩
    logged := by
      refine ⟨turnLog state.log, by simp [logged, AgentRuntime.executionContext], ?_⟩
      intro asks
      obtain ⟨request, entries, sameId, sameAction, member, log⟩ := approved asks
      exact ⟨request, entries, sameId, sameAction, List.mem_append_left _ member, log⟩ }
  refine Tries.bind (perform_tries (unhindered.orderly (by simp))
    ⟨serving.guard, toolCall, _, authorized⟩ ?_)
  intro answer state' unchanged
  have unchanged : state' = state.extend [envelope] stored := unchanged
  subst unchanged
  have executed : Executed call turn.threadId turn.turnId stop seen (toolCall :: waiting) transcript tool
      prepared (rt.executionContext turn) ((state.extend [envelope] stored).extend []
        [⟨.execute tool prepared (rt.executionContext turn), answer⟩]) := {
    guard := serving.guard
    ofTurn := ⟨rfl, rfl⟩
    progressing := unhindered.toProgressing.snoc id id
    executing := ⟨answer, List.getLast?_concat⟩
    inTurn := by simpa [logged] using serving.inTurn.started
    started := by simp [logged, Started]
    seen := by
      intro toolCall' accepted
      refine serving.seen toolCall' ?_
      simpa [logged, accepted_snoc, RuntimeEvent.acceptedCalls] using accepted
    shown := by simp [transcriptFromEvents, same, RuntimeEvent.message, ← serving.shown] }
  obtain ⟨sameId, named, action, executes⟩ := executionReceipt_spec prepared answer
  refine Tries.bind (executed.recordReceipt_tries cleared.sameId cleared.sameName sameId named action
    executes ?_)
  intro recorded serving'
  exact afterTool_tries serving' (handled _)

end Execution

section Handling

variable {rt : AgentRuntime} {strict : Prop} {call : Call} {state : Local} {turn : Turn}
variable {stop : StopReason} {seen : TreeSet CallId} {waiting : List ToolCall} {transcript : List TranscriptMessage}
variable {tool : Tool} {toolCall : ToolCall} {prepared : PreparedToolCall} {access : Access}
variable {iteration : Nat}

/-- A receipt for a call that was not executed, and what `handle_tool_call` returns. -/
theorem Serving.settle_tries {receipt : ToolReceipt} {ok : ToolReceipt → Local → Prop}
    (serving : Serving call turn.threadId turn.turnId stop seen (toolCall :: waiting) transcript state)
    (sameId : receipt.callId = toolCall.id) (sameName : receipt.toolName = toolCall.name)
    (unexecuted : receipt.status = .denied ∨ receipt.status = .failed)
    (handled : ∀ receipt state', Serving call turn.threadId turn.turnId stop seen waiting
      (transcript ++ [.tool receipt]) state' → ok receipt state') :
    (contract rt strict call).Tries
      (do
        rt.recordReceipt turn.threadId turn.turnId receipt false
        return receipt : Attempt RuntimeError ToolReceipt) ok
      (StoppedTurn call turn.threadId turn.turnId) state := by
  refine Tries.bind (serving.recordReceipt_tries sameId sameName unexecuted ?_)
  intro state' serving'
  exact Tries.pure (handled receipt state' serving')

theorem runPrepared_tries {ok : ToolReceipt → Local → Prop}
    (serving : Serving call turn.threadId turn.turnId .toolUse seen (toolCall :: waiting) transcript state)
    (serves : call.Serves turn.threadId turn.turnId)
    (registered : rt.tools.get toolCall.name = some tool)
    (sameId : prepared.callId = toolCall.id) (sameName : prepared.action.toolName = toolCall.name)
    (effective :
      effectiveAccess rt.policy rt.policyContext rt.parentCapabilities toolCall.name = access)
    (granted : access ≠ .deny)
    (answered : ∃ before, state.own.history =
      before ++ [⟨.prepare tool toolCall (rt.executionContext turn), .ok prepared⟩])
    (handled : ∀ receipt state', Serving call turn.threadId turn.turnId .toolUse seen waiting
      (transcript ++ [.tool receipt]) state' → ok receipt state') :
    (contract rt strict call).Tries
      (rt.runPrepared turn iteration toolCall access tool prepared (rt.executionContext turn)) ok
      (StoppedTurn call turn.threadId turn.turnId) state := by
  have allowed : Allowed (turnLog state.log) (turn.turnId, .toolPrepared prepared) :=
    ⟨serving.inTurn.current, serving.inTurn.notEnded,
      sameId ▸ sameName ▸ serving.inTurn.awaits List.mem_cons_self⟩
  refine Tries.bind (serving.skip_tries allowed rfl rfl (by simp) (by simp) id ?_)
  intro envelope stored serving₁ logged quiet
  refine Tries.bind (runHooks_tries
    (fun hook answer observation => ∀ accepts, answer = .ok accepts →
      observation = ⟨.beforeTool hook ⟨turn.threadId, turn.turnId, iteration⟩ prepared, .ok ()⟩)
    ?_ ?_ ?_)
  · intro hook earlier quiet'
    have serving' := serving₁.observe quiet'
    refine perform_tries (serving'.unhindered.orderly (by simp)) trivial ?_
    intro answer state' same
    have same : state' = (state.extend [envelope] stored).extend [] earlier := same
    subst same
    refine ⟨⟨.beforeTool hook ⟨turn.threadId, turn.turnId, iteration⟩ prepared, answer⟩,
      ⟨id, id, id⟩, ?_, by simp⟩
    intro accepts same
    subst same
    rfl
  · intro after quiet' each
    have quiets : ∀ observation ∈ stored ++ after, IsQuiet observation := by
      intro observation member
      cases List.mem_append.mp member with
      | inl first => exact quiet observation first
      | inr later => exact quiet' observation later
    have serving₂ := serving₁.observe quiet'
    rw [Local.extend_extend] at serving₂ ⊢
    have cleared : Cleared rt call (state.extend ([envelope] ++ []) (stored ++ after)) tool prepared
        (rt.executionContext turn) toolCall (stored ++ after) := {
      serves := serves
      requested := (serving₂.inTurn.waits toolCall List.mem_cons_self).1
      registered := registered
      sameId := sameId
      sameName := sameName
      access := effective ▸ granted
      answered := by
        obtain ⟨before, same⟩ := answered
        exact ⟨before, by simp [same]⟩
      first := fun observation member => (quiets observation member).2.1
      hooks := by
        intro hook member
        obtain ⟨observation, found, shown⟩ := each hook member
        exact ⟨iteration, List.mem_append_right _ (shown () rfl ▸ found)⟩ }
    show Contract.Tries _ (if access = .ask then _ else _) _ _ _
    split
    next asks =>
      refine Tries.bind (resolveApproval_tries serving₂ ?_ ?_)
      · intro reason state' serving'
        exact serving'.settle_tries rfl rfl (.inl rfl) handled
      · intro envelopes observations serving' quiet'' approved
        exact executePrepared_tries serving' (cleared.extend quiet'')
          (fun _ => by
            obtain ⟨request, entries, sameId, sameAction, member, log⟩ := approved
            exact ⟨request, entries, sameId, sameAction, List.mem_append_right _ member, log⟩)
          handled
    next unasked =>
      exact executePrepared_tries serving₂ cleared
        (fun asks => absurd (effective.symm.trans asks) unasked) handled
  · intro error after quiet' _
    have serving₂ := serving₁.observe quiet'
    refine Tries.bind (Tries.bind (serving₂.skip_tries ?_ rfl rfl (by simp) (by simp) id ?_))
    · exact allowed_of_inTurn serving₂.inTurn.current serving₂.inTurn.notEnded
    · intro envelope' observations serving₃ _ _
      exact Tries.pure (serving₃.settle_tries rfl rfl (.inl rfl) handled)

/-- Handling a call leaves exactly one receipt for it. -/
theorem handleToolCall_tries {ok : ToolReceipt → Local → Prop}
    (serving : Serving call turn.threadId turn.turnId .toolUse seen (toolCall :: waiting) transcript
      state)
    (serves : call.Serves turn.threadId turn.turnId) (projected : turn.capabilities = rt.capabilities)
    (handled : ∀ receipt state', Serving call turn.threadId turn.turnId .toolUse seen waiting
      (transcript ++ [.tool receipt]) state' → ok receipt state') :
    (contract rt strict call).Tries (rt.handleToolCall turn iteration toolCall) ok
      (StoppedTurn call turn.threadId turn.turnId) state := by
  unfold AgentRuntime.handleToolCall
  cases registered : rt.tools.get toolCall.name with
  | none => exact serving.settle_tries rfl rfl (.inl rfl) handled
  | some tool =>
    have effective : effectiveAccess rt.policy rt.policyContext rt.parentCapabilities toolCall.name =
        turn.capabilities.access toolCall.name := by
      rw [projected, AgentRuntime.capabilities, access_projectCapabilities,
        if_pos (ToolRegistry.mem_names_of_get registered)]
    show Contract.Tries _ (if turn.capabilities.access toolCall.name = .deny then _ else _) _ _ _
    split
    next denied => exact serving.settle_tries rfl rfl (.inl rfl) handled
    next granted =>
      refine Tries.bind (serving.ask_tries trivial (fun _ => ⟨id, id, id⟩) (fun _ _ same => same) ?_
        (by simp))
      intro answer serving'
      cases answer with
      | error error => exact serving'.settle_tries rfl rfl (.inr rfl) handled
      | ok prepared =>
        show Contract.Tries _ (if _ ∨ _ then _ else _) _ _ _
        split
        next changed => exact serving'.settle_tries rfl rfl (.inr rfl) handled
        next kept =>
          rw [not_or, not_not, not_not] at kept
          exact runPrepared_tries serving' serves registered kept.1 kept.2 effective granted
            ⟨_, rfl⟩ handled

/-- The loop over the calls of a response: the calls still to be handled are those
that wait, and each is closed before the next one is looked at. -/
theorem runToolCalls_tries {ok : List TranscriptMessage → Local → Prop}
    (serving : Serving call turn.threadId turn.turnId .toolUse seen waiting transcript state)
    (serves : call.Serves turn.threadId turn.turnId) (projected : turn.capabilities = rt.capabilities)
    (handled : ∀ transcript' state', Serving call turn.threadId turn.turnId .toolUse seen []
      transcript' state' → ok transcript' state') :
    (contract rt strict call).Tries (rt.runToolCalls turn iteration waiting transcript) ok
      (StoppedTurn call turn.threadId turn.turnId) state := by
  induction waiting generalizing state transcript with
  | nil => exact Tries.pure (handled transcript state serving)
  | cons toolCall waiting ih =>
    refine Tries.bind (serving.ask_tries trivial (fun _ => ⟨id, id, id⟩) (fun _ _ same => same) ?_
      (by simp))
    intro answer serving'
    cases answer with
    | true => exact serving'.cancelTurn_tries
    | false =>
      refine Tries.bind (handleToolCall_tries serving' serves projected ?_)
      intro receipt state' serving''
      exact ih serving''

end Handling

end Nausicaa.Core
