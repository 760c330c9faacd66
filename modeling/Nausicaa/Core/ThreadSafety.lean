import Nausicaa.Core.Schedule

/-! # What the log of a thread looks like

Guarantees about the logs that any interleaving of calls leaves behind: receipts are
unique, truthful and complete after recovery, turns are serialized, and a turn's
terminal event closes it unless an after-tool hook rejected one of several calls.
-/

namespace Nausicaa.Core

open Interaction (Adjacent)

/-! ## Receipts -/

/-- What the receipts in the log of a thread say. -/
structure TruthfulReceipts (events : List EventEnvelope) : Prop where
  ofTurns : ∀ envelope ∈ events, envelope.turnId = none → envelope.event = .threadStarted
  once : ∀ turnId callId, receiptCount (turnLog events) turnId callId ≤ 1
  answers : ∀ before turnId receipt after,
    turnLog events = before ++ (turnId, .toolReceiptRecorded receipt) :: after →
    ∃ call, Accepted before turnId call ∧ call.id = receipt.callId ∧ call.name = receipt.toolName
  denied : ∀ turnId receipt prepared, (turnId, .toolReceiptRecorded receipt) ∈ turnLog events →
    receipt.status = .denied → Started (turnLog events) turnId prepared →
    prepared.callId ≠ receipt.callId
  executed : ∀ before turnId receipt after,
    turnLog events = before ++ (turnId, .toolReceiptRecorded receipt) :: after →
    receipt.status = .succeeded ∨ receipt.status = .unknown →
    ∃ prepared, Started before turnId prepared ∧ prepared.callId = receipt.callId ∧
      receipt.action = some prepared.action

/-- Every accepted call has exactly one receipt and every turn a terminal event. -/
structure Complete (log : TurnLog) : Prop where
  answered : ∀ turnId call, Accepted log turnId call → receiptCount log turnId call.id = 1
  ended : ∀ turnId, Occurs log turnId → Ended log turnId

section Receipts

variable {strict : Prop} {world : World} {rt : AgentRuntime} {config : RuntimeConfiguration}

theorem Lawful.truthfulReceipts (lawful : Lawful strict world) (threadId : ThreadId) :
    TruthfulReceipts (world.log threadId) where
  ofTurns envelope member := lawful.untagged envelope (List.mem_of_mem_filter member)
  once _ _ := (lawful.conforms threadId).receiptCount_le_one
  answers _ _ _ _ split := ((lawful.conforms threadId).receipt_truthful split).1
  denied _ _ prepared member isDenied started := by
    obtain ⟨before, after, split⟩ := List.append_of_mem member
    exact ((lawful.conforms threadId).receipt_truthful split).2.1 isDenied prepared started
  executed _ _ _ _ split := ((lawful.conforms threadId).receipt_truthful split).2.2

/-- Receipts are unique and truthful in every run, and when `recover` succeeds the log it
lets go of is complete. -/
theorem Running.receipts (running : Running rt World.empty config) :
    (∀ threadId, TruthfulReceipts (config.shared.log threadId)) ∧
    ∀ task ∈ config.tasks, ∀ threadId reply, task.call = .recover threadId →
      task.program = some (.done (.ok reply)) →
      ∃ log, task.own.left = some (threadId, log) ∧ log <+: config.shared.log threadId ∧
        Complete (turnLog log) := by
  have lawful := running.runsFrom.lawful rfl Lawful.empty
  refine ⟨lawful.truthfulReceipts, ?_⟩
  intro task member threadId reply recovers done
  obtain ⟨index, present⟩ := List.mem_iff_getElem?.mp member
  obtain ⟨log, left, recovered⟩ :=
    (running.runsFrom.returned rfl present done).recovered threadId reply recovers rfl
  have isPrefix := running.runsFrom.left_prefix present left
  have conforms : Conforms (turnLog log) := by
    obtain ⟨more, same⟩ := isPrefix
    have whole := lawful.conforms threadId
    rw [← same, turnLog_append] at whole
    exact whole.prefixed
  exact ⟨log, left, isPrefix, {
    answered := fun turnId call accepted =>
      conforms.receiptCount_eq_one (recovered.settled turnId call accepted)
    ended := recovered.ended conforms }⟩

/-- A turn is dropped while its second call is executed, and then recovered. -/
theorem receipts_recovered :
    ∃ task ∈ (Sample.after .ask (.ok ()) Sample.interrupted).tasks, ∃ log,
      task.own.left = some (Sample.threadId, log) ∧ Complete (turnLog log) := by
  have running := (Sample.after_runs .ask (.ok ()) Sample.interrupted False.elim rfl).running
  obtain ⟨task, present, recovers, reply, done⟩ : ∃ task,
      (Sample.after .ask (.ok ()) Sample.interrupted).tasks[2]? = some task ∧
        task.call = .recover Sample.threadId ∧ ∃ reply, task.program = some (.done (.ok reply)) :=
    ⟨_, rfl, rfl, _, rfl⟩
  obtain ⟨log, left, _, complete⟩ :=
    running.receipts.2 task (List.mem_of_getElem? present) _ reply recovers done
  exact ⟨task, List.mem_of_getElem? present, log, left, complete⟩

end Receipts

/-! ## Terminal events -/

/-- At a terminal event every accepted call of the turn has its receipt, and nothing more
is said about the turn. -/
def TerminalCloses (log : TurnLog) : Prop :=
  ∀ before turnId event after, log = before ++ (turnId, event) :: after → event.IsTerminal →
    (∀ call, Accepted before turnId call → Receipted before turnId call.id) ∧
      ∀ entry ∈ after, entry.1 ≠ turnId

section Terminal

variable {rt : AgentRuntime} {config : RuntimeConfiguration}

/-- A terminal event closes its turn in every run in which an after-tool hook rejects a
receipt only when no accepted call of the turn is left without one. -/
theorem RunsFrom.terminalCloses (runs : RunsFrom rt True World.empty config) (threadId : ThreadId) :
    TerminalCloses (turnLog (config.shared.log threadId)) := by
  have lawful := runs.lawful rfl Lawful.empty
  intro before turnId event after split terminal
  have settled := (lawful.built threadId _ _ _ split).2 trivial terminal
  exact ⟨settled turnId, (lawful.conforms threadId).silent_after split terminal settled⟩

theorem terminalCloses_completed : TerminalCloses (turnLog
    ((Sample.after .ask (.ok ()) (Sample.turn 48)).shared.log Sample.threadId)) :=
  (Sample.after_runs .ask (.ok ()) (Sample.turn 48) (fun _ => rfl) rfl).terminalCloses
    Sample.threadId

/-- An after-tool hook that rejects the first of two calls ends the turn while the second
has no receipt; recovery later appends one to the turn that has already failed. -/
theorem rejected_turn_not_closed :
    Running (Sample.runtime .allow) World.empty (Sample.after .allow (.error "no") Sample.rejected) ∧
      (∀ task ∈ (Sample.after .allow (.error "no") Sample.rejected).tasks,
        Calm task.own.history) ∧
      ¬ TerminalCloses (turnLog
        ((Sample.after .allow (.error "no") Sample.rejected).shared.log Sample.threadId)) := by
  refine ⟨(Sample.after_runs .allow (.error "no") Sample.rejected False.elim rfl).running, ?_, ?_⟩
  · unfold Calm
    decide
  · intro closes
    obtain ⟨log, isLog⟩ : ∃ log, log = turnLog
      ((Sample.after .allow (.error "no") Sample.rejected).shared.log Sample.threadId) := ⟨_, rfl⟩
    have split : log = log.take 9 ++
        (Sample.turnId, .turnFailed "hook `audit` rejected after_tool: no") ::
          [(Sample.turnId, .toolReceiptRecorded
            (.malformed Sample.second "turn was interrupted before tool preparation"))] := by
      rw [isLog]
      rfl
    rw [← isLog] at closes
    exact (closes _ _ _ _ split trivial).2 _ List.mem_cons_self rfl

end Terminal

/-! ## Serialization -/

/-- A call that was turned away: it appended nothing, and returns `error`. -/
structure TurnedAway (task : RuntimeTask) (error : RuntimeError) : Prop where
  silent : ∀ observation ∈ task.own.history, ¬ observation.1.IsAppend
  stays : ∀ op resume, task.program = some (.ask op resume) → ¬ op.IsAppend
  returns : ∀ result, task.program = some (.done result) → result = .error error

/-- The turns of a thread are serialized. -/
structure Serialized (config : RuntimeConfiguration) : Prop where
  blocks : ∀ threadId turnId, Occurs (turnLog (config.shared.log threadId)) turnId →
    IsBlock (turnLog (config.shared.log threadId)) turnId
  active : ∀ task ∈ config.tasks, ∀ threadId, FoundActive task.own.history threadId →
    TurnedAway task (.concurrentTurn threadId)
  duplicate : ∀ task ∈ config.tasks, ∀ threadId turnId, task.call.Serves threadId turnId →
    FoundTurn task.own.history threadId turnId → TurnedAway task (.duplicateTurn threadId turnId)
  released : (∀ task ∈ config.tasks,
      task.program = none ∨ ∃ result, task.program = some (.done result)) →
    config.shared.active = ∅

section Serialization

variable {call : Call} {history before after : List Observation} {threadId : ThreadId}
variable {answer : Except StoreError Bool} {rt : AgentRuntime} {config : RuntimeConfiguration}
variable {turnId : TurnId} {world : World}

/-- Nothing is appended before a call asks for its thread. -/
theorem OrderlyHistory.silent_before (orderly : OrderlyHistory call history)
    (split : history = before ++ ⟨.activeInsert threadId, answer⟩ :: after) :
    ∀ observation ∈ before, ¬ observation.1.IsAppend := by
  intro observation member append
  have load := (orderly _ _ _ split).acquires threadId rfl observation member
  obtain ⟨op, answer⟩ := observation
  cases op <;> first | exact load | exact append

/-- Nor after it was turned away, for whatever reason. -/
theorem OrderlyHistory.silent_after (orderly : OrderlyHistory call history)
    (split : history = before ++ after)
    (away : (∃ threadId, FoundActive before threadId) ∨
      ∃ threadId turnId, call.Serves threadId turnId ∧ FoundTurn before threadId turnId) :
    ∀ observation ∈ after, ¬ observation.1.IsAppend := by
  intro observation member append
  obtain ⟨middle, rest, rfl⟩ := List.append_of_mem member
  have again : history = (before ++ middle) ++ observation :: rest := by simpa using split
  obtain ⟨notActive, newTurn⟩ := (orderly _ _ _ again).appends append
  cases away with
  | inl active =>
    obtain ⟨threadId, found⟩ := active
    exact notActive threadId (List.mem_append_left _ found)
  | inr duplicate =>
    obtain ⟨threadId, turnId, serves, events, ⟨first, last, rfl⟩, used⟩ := duplicate
    exact newTurn threadId turnId serves ⟨events, ⟨first, last ++ middle, by simp⟩, used⟩

theorem RunsFrom.active_empty {strict : Prop} (runs : RunsFrom rt strict world config)
    (idle : world.active = ∅)
    (finished : ∀ task ∈ config.tasks,
      task.program = none ∨ ∃ result, task.program = some (.done result)) :
    config.shared.active = ∅ := by
  rw [Finset.eq_empty_iff_forall_notMem]
  intro threadId active
  obtain ⟨entry, member, held⟩ := ((runs.sound idle).invariant.active threadId).mp active
  obtain ⟨task, present, rfl⟩ := List.mem_map.mp member
  obtain ⟨index, found⟩ := List.mem_iff_getElem?.mp present
  cases finished task present with
  | inl dropped =>
    obtain ⟨own, same⟩ := (runs.sound idle).dropped index task found dropped
    rw [same] at held
    cases held
  | inr done =>
    obtain ⟨result, done⟩ := done
    exact (runs.returned idle found done).released threadId held

/-- Whatever the interleaving, wherever calls are dropped and whichever appends fail,
the turns of a thread are serialized and no thread stays active. -/
theorem Running.serialized (running : Running rt World.empty config) : Serialized config where
  blocks threadId turnId occurs :=
    ((running.runsFrom.lawful rfl Lawful.empty).conforms threadId).isBlock occurs
  active := by
    intro task member threadId found
    obtain ⟨index, present⟩ := List.mem_iff_getElem?.mp member
    have orderly := running.runsFrom.orderly rfl present
    obtain ⟨before, after, split⟩ := List.append_of_mem found
    have again : task.own.history =
        (before ++ [⟨.activeInsert threadId, .ok false⟩]) ++ after := by simpa using split
    refine ⟨?_, ?_, ?_⟩
    · intro observation seen
      rw [split] at seen
      cases List.mem_append.mp seen with
      | inl earlier => exact orderly.silent_before split observation earlier
      | inr rest =>
        cases List.mem_cons.mp rest with
        | inl here => rw [here]; exact id
        | inr later =>
          exact orderly.silent_after again (.inl ⟨threadId, by simp [FoundActive]⟩) observation later
    · intro op resume asks append
      exact ((running.runsFrom.permitted rfl present asks).1.appends append).1 threadId found
    · intro result done
      exact (running.runsFrom.returned rfl present done).active threadId found
  duplicate := by
    intro task member threadId turnId serves found
    obtain ⟨index, present⟩ := List.mem_iff_getElem?.mp member
    have orderly := running.runsFrom.orderly rfl present
    obtain ⟨events, ⟨before, after, split⟩, used⟩ := found
    have again : task.own.history = (before ++ [⟨.activeInsert threadId, .ok true⟩,
        ⟨.loadThread threadId, .ok events⟩]) ++ after := by simpa using split
    refine ⟨?_, ?_, ?_⟩
    · intro observation seen
      rw [split] at seen
      cases List.mem_append.mp seen with
      | inl earlier => exact orderly.silent_before split observation earlier
      | inr rest =>
        obtain here | here | later := by simpa using rest
        · rw [here]; exact id
        · rw [here]; exact id
        · exact orderly.silent_after again (.inr ⟨threadId, turnId, serves, events,
            ⟨before, [], by simp⟩, used⟩) observation later
    · intro op resume asks append
      exact ((running.runsFrom.permitted rfl present asks).1.appends append).2 threadId turnId serves
        ⟨events, ⟨before, after, split⟩, used⟩
    · intro result done
      exact (running.runsFrom.returned rfl present done).duplicate threadId turnId serves
        ⟨events, ⟨before, after, split⟩, used⟩
  released := running.runsFrom.active_empty rfl

/-- A recovery that finds a turn in progress, which is then dropped. -/
theorem serialized_contended : Serialized (Sample.after .ask (.ok ()) Sample.contended) :=
  (Sample.after_runs .ask (.ok ()) Sample.contended False.elim rfl).running.serialized

end Serialization

end Nausicaa.Core
