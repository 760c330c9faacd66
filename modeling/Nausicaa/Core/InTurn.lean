import Nausicaa.Core.TurnLog

/-! # The log of a turn in progress

`InTurn` is what holds of a thread's log while a turn is being served: which of its
accepted calls still wait for a receipt, and which execution is running.  There is
one lemma for each kind of event a turn appends, saying that it is allowed and what
holds after it. -/

namespace Nausicaa.Core

/-- The turn is current and not ended; `waiting` are its calls without a receipt, in
the order in which they are handled, all from messages with stop reason `stop`, and
only `running` is being executed. -/
structure InTurn (log : TurnLog) (turnId : TurnId) (stop : StopReason) (waiting : List ToolCall)
    (running : Option PreparedToolCall) : Prop where
  current : Current log turnId
  notEnded : ¬ Ended log turnId
  waits : ∀ call ∈ waiting, Requested log turnId stop call ∧ ¬ Receipted log turnId call.id
  distinct : (waiting.map ToolCall.id).Nodup
  answered : ∀ turnId' call, Accepted log turnId' call →
    Receipted log turnId' call.id ∨ (turnId' = turnId ∧ call ∈ waiting)
  finished : ∀ turnId' prepared, Started log turnId' prepared →
    Receipted log turnId' prepared.callId ∨ (turnId' = turnId ∧ running = some prepared)
  known : ∀ callId, Receipted log turnId callId →
    ∃ call, Accepted log turnId call ∧ call.id = callId

/-- Nothing is left to close: what recovery establishes. -/
structure Recovered (log : TurnLog) : Prop where
  settled : Settled log
  idle : Idle log
  ended : Conforms log → ∀ turnId, Occurs log turnId → Ended log turnId

namespace InTurn

variable {log : TurnLog} {turnId : TurnId} {waiting : List ToolCall} {call : ToolCall}
variable {running : Option PreparedToolCall} {event : RuntimeEvent} {stop : StopReason}

/-! ## What it says -/

theorem settled (inTurn : InTurn log turnId stop [] running) : Settled log := by
  intro turnId' call accepted
  cases inTurn.answered turnId' call accepted with
  | inl receipted => exact receipted
  | inr waits => cases waits.2

theorem idle (inTurn : InTurn log turnId stop waiting none) : Idle log := by
  intro turnId' prepared started
  cases inTurn.finished turnId' prepared started with
  | inl receipted => exact receipted
  | inr runs => cases runs.2

theorem awaits (inTurn : InTurn log turnId stop waiting running) (member : call ∈ waiting) :
    Awaits log turnId call.id call.name :=
  ⟨⟨call, (inTurn.waits call member).1.accepted, rfl, rfl⟩, (inTurn.waits call member).2⟩

/-- A waiting call has not been started. -/
theorem not_started (inTurn : InTurn log turnId stop waiting none) (member : call ∈ waiting) :
    ∀ prepared, Started log turnId prepared → prepared.callId ≠ call.id := by
  intro prepared started same
  exact (inTurn.waits call member).2 (same ▸ inTurn.idle turnId prepared started)

/-- With all of its calls answered nothing waits any more. -/
theorem waiting_eq_nil (inTurn : InTurn log turnId stop waiting running)
    (answered : ∀ call, Accepted log turnId call → Receipted log turnId call.id) :
    waiting = [] := by
  cases waiting with
  | nil => rfl
  | cons call rest =>
    have waits := inTurn.waits call List.mem_cons_self
    exact absurd (answered call waits.1.accepted) waits.2

/-! ## One more event -/

/-- Events that accept, answer, start or end nothing. -/
theorem skip (inTurn : InTurn log turnId stop waiting running) (accepts : event.acceptedCalls = [])
    (records : ∀ receipt, event ≠ .toolReceiptRecorded receipt)
    (starts : ∀ prepared, event ≠ .toolExecutionStarted prepared) (ends : ¬ event.IsTerminal) :
    InTurn (log ++ [(turnId, event)]) turnId stop waiting running where
  current := current_snoc.mpr rfl
  notEnded := by simp [ended_snoc, inTurn.notEnded, ends]
  waits call member := by
    refine ⟨(inTurn.waits call member).1.append _, ?_⟩
    simpa [receipted_snoc, records] using (inTurn.waits call member).2
  distinct := inTurn.distinct
  answered turnId' call accepted := by
    rw [accepted_snoc, accepts] at accepted
    simpa [receipted_snoc, records] using inTurn.answered turnId' call (by simpa using accepted)
  finished turnId' prepared started := by
    have earlier : Started log turnId' prepared := by simpa [started_snoc, starts] using started
    simpa [receipted_snoc, records] using inTurn.finished turnId' prepared earlier
  known callId receipted := by
    obtain ⟨call, accepted, same⟩ := inTurn.known callId
      (by simpa [receipted_snoc, records] using receipted)
    exact ⟨call, accepted_snoc.mpr (.inl accepted), same⟩

theorem allowed_message {content : String} {toolCalls : List ToolCall} {stopReason : StopReason}
    {usage : TokenUsage} (inTurn : InTurn log turnId stop [] running)
    (distinct : (toolCalls.map ToolCall.id).Nodup)
    (unused : ∀ call ∈ toolCalls, ∀ earlier, Accepted log turnId earlier → earlier.id ≠ call.id) :
    Allowed log (turnId, .assistantMessage content toolCalls stopReason usage) :=
  ⟨inTurn.current, inTurn.notEnded, inTurn.settled, distinct, unused⟩

/-- The calls of a new message all wait. -/
theorem message {content : String} {toolCalls : List ToolCall} {stopReason : StopReason}
    {usage : TokenUsage} (inTurn : InTurn log turnId stop [] none)
    (distinct : (toolCalls.map ToolCall.id).Nodup)
    (unused : ∀ call ∈ toolCalls, ∀ earlier, Accepted log turnId earlier → earlier.id ≠ call.id) :
    InTurn (log ++ [(turnId, .assistantMessage content toolCalls stopReason usage)]) turnId
      stopReason toolCalls none where
  current := current_snoc.mpr rfl
  notEnded := by simp [ended_snoc, inTurn.notEnded, RuntimeEvent.IsTerminal]
  waits call member := by
    refine ⟨⟨content, toolCalls, usage, member, by simp⟩, ?_⟩
    intro receipted
    obtain ⟨earlier, accepted, same⟩ := inTurn.known call.id
      (by simpa [receipted_snoc] using receipted)
    exact unused call member earlier accepted same
  distinct := distinct
  answered turnId' call accepted := by
    cases accepted_snoc.mp accepted with
    | inl earlier => exact .inl ((inTurn.settled turnId' call earlier).append _)
    | inr last => exact .inr last
  finished turnId' prepared started := by
    have earlier : Started log turnId' prepared := by simpa [started_snoc] using started
    exact .inl ((inTurn.idle turnId' prepared earlier).append _)
  known callId receipted := by
    obtain ⟨call, accepted, same⟩ := inTurn.known callId
      (by simpa [receipted_snoc] using receipted)
    exact ⟨call, accepted_snoc.mpr (.inl accepted), same⟩

theorem allowed_started {prepared : PreparedToolCall} (inTurn : InTurn log turnId stop waiting none)
    (member : call ∈ waiting) (sameId : prepared.callId = call.id)
    (sameName : prepared.action.toolName = call.name) :
    Allowed log (turnId, .toolExecutionStarted prepared) :=
  ⟨inTurn.current, inTurn.notEnded, sameId ▸ sameName ▸ inTurn.awaits member, inTurn.idle⟩

theorem started {prepared : PreparedToolCall} (inTurn : InTurn log turnId stop waiting none) :
    InTurn (log ++ [(turnId, .toolExecutionStarted prepared)]) turnId stop waiting
      (some prepared) where
  current := current_snoc.mpr rfl
  notEnded := by simp [ended_snoc, inTurn.notEnded, RuntimeEvent.IsTerminal]
  waits call member := by
    refine ⟨(inTurn.waits call member).1.append _, ?_⟩
    simpa [receipted_snoc] using (inTurn.waits call member).2
  distinct := inTurn.distinct
  answered turnId' call accepted := by
    have earlier : Accepted log turnId' call := by
      simpa [accepted_snoc, RuntimeEvent.acceptedCalls] using accepted
    simpa [receipted_snoc] using inTurn.answered turnId' call earlier
  finished turnId' prepared' started := by
    cases started_snoc.mp started with
    | inl earlier => exact .inl ((inTurn.idle turnId' prepared' earlier).append _)
    | inr last =>
      obtain ⟨rfl, same⟩ := last
      cases same
      exact .inr ⟨rfl, rfl⟩
  known callId receipted := by
    obtain ⟨call, accepted, same⟩ := inTurn.known callId
      (by simpa [receipted_snoc] using receipted)
    exact ⟨call, accepted_snoc.mpr (.inl accepted), same⟩

theorem allowed_receipt {receipt : ToolReceipt} (inTurn : InTurn log turnId stop waiting running)
    (member : call ∈ waiting) (sameId : receipt.callId = call.id)
    (sameName : receipt.toolName = call.name) (truthful : Truthful log turnId receipt) :
    Allowed log (turnId, .toolReceiptRecorded receipt) :=
  ⟨inTurn.current, sameId ▸ sameName ▸ inTurn.awaits member, truthful⟩

/-- The receipt of the call being handled; what ran can only be that call. -/
theorem receipt {receipt : ToolReceipt} (inTurn : InTurn log turnId stop (call :: waiting) running)
    (sameId : receipt.callId = call.id)
    (runs : ∀ prepared, running = some prepared → prepared.callId = call.id) :
    InTurn (log ++ [(turnId, .toolReceiptRecorded receipt)]) turnId stop waiting none where
  current := current_snoc.mpr rfl
  notEnded := by simp [ended_snoc, inTurn.notEnded, RuntimeEvent.IsTerminal]
  waits call' member := by
    obtain ⟨requested, unreceipted⟩ := inTurn.waits call' (List.mem_cons_of_mem _ member)
    refine ⟨requested.append _, ?_⟩
    rw [receipted_snoc, not_or]
    refine ⟨unreceipted, ?_⟩
    intro ⟨_, receipt', same, sameId'⟩
    cases same
    have distinct := (List.nodup_cons.mp inTurn.distinct).1
    exact distinct (List.mem_map.mpr ⟨call', member, by rw [← sameId', sameId]⟩)
  distinct := (List.nodup_cons.mp inTurn.distinct).2
  answered turnId' call' accepted := by
    have earlier : Accepted log turnId' call' := by
      simpa [accepted_snoc, RuntimeEvent.acceptedCalls] using accepted
    cases inTurn.answered turnId' call' earlier with
    | inl receipted => exact .inl (receipted.append _)
    | inr waits =>
      obtain ⟨rfl, member⟩ := waits
      cases List.mem_cons.mp member with
      | inl same =>
        subst same
        exact .inl (receipted_snoc.mpr (.inr ⟨rfl, receipt, rfl, sameId⟩))
      | inr later => exact .inr ⟨rfl, later⟩
  finished turnId' prepared started := by
    have earlier : Started log turnId' prepared := by simpa [started_snoc] using started
    cases inTurn.finished turnId' prepared earlier with
    | inl receipted => exact .inl (receipted.append _)
    | inr running =>
      obtain ⟨rfl, same⟩ := running
      have sameCall := runs prepared same
      exact .inl (receipted_snoc.mpr (.inr ⟨rfl, receipt, rfl, by rw [sameId, sameCall]⟩))
  known callId receipted := by
    cases receipted_snoc.mp receipted with
    | inl earlier =>
      obtain ⟨call', accepted, same⟩ := inTurn.known callId earlier
      exact ⟨call', accepted_snoc.mpr (.inl accepted), same⟩
    | inr last =>
      obtain ⟨_, receipt', same, sameId'⟩ := last
      cases same
      have accepted := (inTurn.waits call List.mem_cons_self).1.accepted
      exact ⟨call, accepted_snoc.mpr (.inl accepted), by rw [← sameId', sameId]⟩

/-- A new turn on a recovered log. -/
theorem start (recovered : Recovered log) (unused : ¬ Occurs log turnId) :
    InTurn (log ++ [(turnId, .turnStarted)]) turnId stop [] none where
  current := current_snoc.mpr rfl
  notEnded := by
    rw [ended_snoc, not_or]
    refine ⟨?_, by simp [RuntimeEvent.IsTerminal]⟩
    intro ⟨event, member, _⟩
    exact unused ⟨event, member⟩
  waits call member := by cases member
  distinct := List.nodup_nil
  answered turnId' call accepted := by
    have earlier : Accepted log turnId' call := by
      simpa [accepted_snoc, RuntimeEvent.acceptedCalls] using accepted
    exact .inl ((recovered.settled turnId' call earlier).append _)
  finished turnId' prepared started := by
    have earlier : Started log turnId' prepared := by simpa [started_snoc] using started
    exact .inl ((recovered.idle turnId' prepared earlier).append _)
  known callId receipted := by
    have earlier : Receipted log turnId callId := by simpa [receipted_snoc] using receipted
    obtain ⟨receipt, member, _⟩ := earlier
    exact absurd ⟨_, member⟩ unused

end InTurn

end Nausicaa.Core
