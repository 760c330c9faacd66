import Nausicaa.Core.Schedule

/-! # What a turn asks of its surroundings

Guarantees about the operations that leave the runtime: executions are authorized and
written ahead, model requests find every call answered, and contexts are compiled from
paired transcripts.
-/

namespace Nausicaa.Core

open Interaction (Adjacent Program)

section Runs

variable {rt : AgentRuntime} {config : RuntimeConfiguration} {index : Nat} {task : RuntimeTask}

theorem view_log {world : World} {own : Own} {threadId : ThreadId}
    (guard : (world.view own).own.held = .guard threadId) :
    (world.view own).log = world.log threadId := by
  have guard : own.held = .guard threadId := guard
  simp [World.view, guard]

/-! ## Authorization -/

/-- The authorization behind an execution, in terms of the thread's log and of what the
call was answered `since` the preparation. -/
structure Justified (rt : AgentRuntime) (call : Call) (log : TurnLog) (history : List Observation)
    (tool : Tool) (prepared : PreparedToolCall) (context : ToolExecutionContext)
    (toolCall : ToolCall) : Prop where
  serves : call.Serves context.threadId context.turnId
  requested : Requested log context.turnId .toolUse toolCall
  registered : rt.tools.get toolCall.name = some tool
  sameId : prepared.callId = toolCall.id
  sameName : prepared.action.toolName = toolCall.name
  access : effectiveAccess rt.policy rt.policyContext rt.parentCapabilities toolCall.name ≠ .deny
  answered : ∃ before since entries,
    history = before ++ ⟨.prepare tool toolCall context, .ok prepared⟩ :: since ∧
    (∀ observation ∈ since, ¬ IsExecution observation) ∧
    (∀ hook ∈ rt.hooks, ∃ iteration,
      (⟨.beforeTool hook ⟨context.threadId, context.turnId, iteration⟩ prepared, .ok ()⟩ :
        Observation) ∈ since) ∧
    log = entries ++ [(context.turnId, .toolExecutionStarted prepared)] ∧
    (effectiveAccess rt.policy rt.policyContext rt.parentCapabilities toolCall.name = .ask →
      ApprovedAsPrepared entries since context.turnId toolCall prepared)

/-- Whenever the executor is invoked there is a call of the model behind it that was
accepted, resolved, prepared, granted and, where the policy asks for it, approved. -/
theorem execute_justified {events : List EventEnvelope} {nextSequence : Nat}
    {issued : Finset ThreadId} {tool : Tool} {prepared : PreparedToolCall}
    {context : ToolExecutionContext}
    {resume : Except ToolError ToolOutput →
      Program Operation Answer (Except RuntimeError Reply)}
    (running : Running rt (World.opened events nextSequence issued) config)
    (present : config.tasks[index]? = some task)
    (asks : task.program = some (.ask (.execute tool prepared context) resume)) :
    ∃ toolCall, Justified rt task.call (turnLog (config.shared.log context.threadId))
      task.own.history tool prepared context toolCall := by
  obtain ⟨_, guard, toolCall, since, authorized⟩ :=
    running.runsFrom.permitted rfl present asks
  have log := view_log guard
  obtain ⟨before, history⟩ := authorized.answered
  obtain ⟨entries, logged, approved⟩ := authorized.logged
  rw [log] at logged
  exact ⟨toolCall, {
    serves := authorized.serves
    requested := log ▸ authorized.requested
    registered := authorized.registered
    sameId := authorized.sameId
    sameName := authorized.sameName
    access := authorized.access
    answered := ⟨before, since, entries, history, authorized.first, authorized.hooks, logged,
      approved⟩ }⟩

/-- The second call of a turn, with a tool that needs approval. -/
theorem execute_justified_second : ∃ task ∈ (Sample.after .ask (.ok ()) (Sample.turn 35)).tasks,
    ∃ context toolCall, Justified (Sample.runtime .ask) task.call
      (turnLog ((Sample.after .ask (.ok ()) (Sample.turn 35)).shared.log Sample.threadId))
      task.own.history Sample.tool (Sample.prepare Sample.second) context toolCall := by
  have running := (Sample.after_runs .ask (.ok ()) (Sample.turn 35) False.elim rfl).running
  obtain ⟨task, present, resume, asks⟩ : ∃ task,
      (Sample.after .ask (.ok ()) (Sample.turn 35)).tasks[1]? = some task ∧ ∃ resume,
        task.program = some (.ask (.execute Sample.tool (Sample.prepare Sample.second)
          ⟨Sample.threadId, Sample.turnId, none, ⟨0⟩, ∅⟩) resume) :=
    ⟨_, rfl, _, rfl⟩
  exact ⟨task, List.mem_of_getElem? present, _, execute_justified running present asks⟩

/-! ## Write-ahead order -/

/-- What is stored before and after the side effects of a run. -/
structure WriteAhead (config : RuntimeConfiguration) : Prop where
  started : ∀ task ∈ config.tasks, ∀ tool prepared context resume,
    task.program = some (.ask (.execute tool prepared context) resume) →
    ∃ before envelope notes, task.own.history = before ++
        ⟨.storeAppend context.threadId (some context.turnId) (.toolExecutionStarted prepared),
          .ok envelope⟩ :: notes ∧
      ∀ observation ∈ notes, IsNote observation
  inFlight : ∀ threadId key key', InFlight (turnLog (config.shared.log threadId)) key →
    InFlight (turnLog (config.shared.log threadId)) key' → key = key'
  settled : ∀ task ∈ config.tasks, ∀ request control resume,
    task.program = some (.ask (.completeControlled request control) resume) →
    Settled (turnLog (config.shared.log request.threadId))
  recorded : ∀ task ∈ config.tasks, ∀ tool prepared context answer before next after,
    task.own.history = before ++ ⟨.execute tool prepared context, answer⟩ :: next :: after →
    ∃ receipt, receipt.callId = prepared.callId ∧ next.1 =
      .storeAppend context.threadId (some context.turnId) (.toolReceiptRecorded receipt)
  lost : ∀ task ∈ config.tasks,
    ∀ tool prepared context answer threadId turnId event source before after,
    task.own.history = before ++ ⟨.execute tool prepared context, answer⟩ ::
      ⟨.storeAppend threadId turnId event, .error source⟩ :: after →
    (∀ observation ∈ after, ¬ observation.1.IsOutward) ∧
    (∀ op resume, task.program = some (.ask op resume) → ¬ op.IsOutward) ∧
    ∀ result, task.program = some (.done result) → result =
      .error (.receiptPersistenceUnknown prepared.callId prepared.action.toolName source)

/-- After a failed append nothing outward happens any more. -/
theorem OrderlyHistory.not_outward {call : Call} {history before after : List Observation}
    {failed : Observation} (orderly : OrderlyHistory call history) (refused : IsFailedAppend failed)
    (split : history = before ++ failed :: after) :
    ∀ observation ∈ after, ¬ observation.1.IsOutward := by
  intro observation member outward
  obtain ⟨middle, rest, rfl⟩ := List.append_of_mem member
  have again : history = (before ++ failed :: middle) ++ observation :: rest := by simpa using split
  exact (orderly _ _ _ again).outward outward failed (by simp) refused

/-- In every run executions are written ahead, at most one is in flight, models are asked
only when every call is answered, and a lost receipt stops the turn. -/
theorem Running.writeAhead (running : Running rt World.empty config) : WriteAhead config where
  started := by
    intro task member tool prepared context resume asks
    obtain ⟨index, present⟩ := List.mem_iff_getElem?.mp member
    obtain ⟨_, _, _, _, authorized⟩ := running.runsFrom.permitted rfl present asks
    exact authorized.started
  inFlight := by
    intro threadId key key' first second
    have lawful := running.runsFrom.lawful rfl Lawful.empty
    exact (lawful.conforms threadId).inFlight_unique first second
  settled := by
    intro task member request control resume asks
    obtain ⟨index, present⟩ := List.mem_iff_getElem?.mp member
    obtain ⟨_, guard, settled⟩ := running.runsFrom.permitted rfl present asks
    exact view_log guard ▸ settled
  recorded := by
    intro task member tool prepared context answer before next after split
    obtain ⟨index, present⟩ := List.mem_iff_getElem?.mp member
    have orderly := running.runsFrom.orderly rfl present
    have again : task.own.history =
        (before ++ [⟨.execute tool prepared context, answer⟩]) ++ next :: after := by
      simpa using split
    obtain ⟨receipt, asked, sameId, _⟩ := (orderly _ _ _ again).records prepared context
      ⟨tool, answer, List.getLast?_concat⟩
    exact ⟨receipt, sameId, asked⟩
  lost := by
    intro task member tool prepared context answer threadId turnId event source before after split
    obtain ⟨index, present⟩ := List.mem_iff_getElem?.mp member
    have refused : IsFailedAppend ⟨.storeAppend threadId turnId event, .error source⟩ := trivial
    have again : task.own.history = (before ++ [⟨.execute tool prepared context, answer⟩]) ++
        ⟨.storeAppend threadId turnId event, .error source⟩ :: after := by simpa using split
    refine ⟨?_, ?_, ?_⟩
    · exact (running.runsFrom.orderly rfl present).not_outward refused again
    · intro op resume asks outward
      obtain ⟨orderly, _⟩ := running.runsFrom.permitted rfl present asks
      exact orderly.outward outward _ (by simp [split]) refused
    · intro result done
      exact (running.runsFrom.returned rfl present done).lost prepared source
        ⟨tool, context, answer, threadId, turnId, event, before, after, split⟩

/-- A turn between two executions. -/
theorem writeAhead_sample : WriteAhead (Sample.after .ask (.ok ()) (Sample.turn 35)) :=
  (Sample.after_runs .ask (.ok ()) (Sample.turn 35) False.elim rfl).running.writeAhead

/-! ## Paired contexts -/

/-- Every context is compiled from a transcript in which each assistant message is
followed by exactly one receipt for each of its calls. -/
theorem compile_paired {input : ContextInput}
    {resume : Except ContextError CompiledContext →
      Program Operation Answer (Except RuntimeError Reply)}
    (running : Running rt World.empty config) (present : config.tasks[index]? = some task)
    (asks : task.program = some (.ask (.compile input) resume)) : Paired input.transcript := by
  obtain ⟨_, guard, settled, shown⟩ := running.runsFrom.permitted rfl present asks
  have lawful := running.runsFrom.lawful rfl Lawful.empty
  rw [view_log guard] at settled shown
  rw [shown, lawful.transcript]
  exact (lawful.conforms input.threadId).paired settled

/-- The second iteration of a turn with two calls. -/
theorem compile_paired_iteration : ∃ input : ContextInput, input.transcript.length = 4 ∧
    Paired input.transcript := by
  have running := (Sample.after_runs .ask (.ok ()) (Sample.turn 39) False.elim rfl).running
  obtain ⟨input, length, task, present, resume, asks⟩ : ∃ input : ContextInput,
      input.transcript.length = 4 ∧ ∃ task,
        (Sample.after .ask (.ok ()) (Sample.turn 39)).tasks[1]? = some task ∧ ∃ resume,
          task.program = some (.ask (.compile input) resume) := ⟨_, rfl, _, rfl, _, rfl⟩
  exact ⟨input, length, compile_paired running present asks⟩

/-! ## Replayed transcripts -/

/-- Whatever the store held before, a context is compiled from the transcript that a
restart would read back from the thread's log. -/
theorem compile_replayed {events : List EventEnvelope} {nextSequence : Nat}
    {issued : Finset ThreadId} {input : ContextInput}
    {resume : Except ContextError CompiledContext →
      Program Operation Answer (Except RuntimeError Reply)}
    (running : Running rt (World.opened events nextSequence issued) config)
    (present : config.tasks[index]? = some task)
    (asks : task.program = some (.ask (.compile input) resume)) :
    input.transcript = transcriptFromEvents (config.shared.log input.threadId) := by
  obtain ⟨_, guard, _, shown⟩ := running.runsFrom.permitted rfl present asks
  rw [view_log guard] at shown
  exact shown

/-- The second iteration of a turn, after two calls have been handled. -/
theorem compile_replayed_iteration : ∃ input : ContextInput, input.transcript.length = 4 ∧
    input.transcript = transcriptFromEvents
      ((Sample.after .ask (.ok ()) (Sample.turn 39)).shared.log input.threadId) := by
  have running : Running (Sample.runtime .ask) (World.opened [] 0 ∅)
      (Sample.after .ask (.ok ()) (Sample.turn 39)) :=
    (Sample.after_runs .ask (.ok ()) (Sample.turn 39) False.elim rfl).running
  obtain ⟨input, length, task, present, resume, asks⟩ : ∃ input : ContextInput,
      input.transcript.length = 4 ∧ ∃ task,
        (Sample.after .ask (.ok ()) (Sample.turn 39)).tasks[1]? = some task ∧ ∃ resume,
          task.program = some (.ask (.compile input) resume) := ⟨_, rfl, _, rfl, _, rfl⟩
  exact ⟨input, length, compile_replayed running present asks⟩

end Runs

end Nausicaa.Core
