import Nausicaa.Core.TurnLog

/-! # What conforming logs look like

The shape of a log whose every event was allowed where it stands: each turn is one
block of events, each call has at most one receipt and that receipt is truthful, and
at most one execution waits for its receipt.
-/

namespace Nausicaa.Core

open Interaction (Built)

/-! ## Turns -/

/-- The events of a turn are one block of the log, which the start of the turn opens and
in which at most one event is terminal. -/
def IsBlock (log : TurnLog) (turnId : TurnId) : Prop :=
  ∃ before rest after, log = before ++ (turnId, .turnStarted) :: rest ++ after ∧
    (∀ entry ∈ before ++ after, entry.1 ≠ turnId) ∧
    (∀ entry ∈ rest, entry.1 = turnId ∧ entry.2 ≠ .turnStarted) ∧
    rest.countP (fun entry => decide entry.2.IsTerminal) ≤ 1

section Turns

variable {log before after : TurnLog} {turnId turnId' : TurnId} {event : RuntimeEvent}

theorem IsBlock.started (fresh : ¬ Occurs log turnId) :
    IsBlock (log ++ [(turnId, .turnStarted)]) turnId := by
  refine ⟨log, [], [], by simp, ?_, by simp, by simp⟩
  intro entry member same
  have earlier : entry ∈ log := by simpa using member
  exact fresh ⟨entry.2, same ▸ earlier⟩

/-- An event of another turn. -/
theorem IsBlock.other (block : IsBlock log turnId) (other : turnId' ≠ turnId) :
    IsBlock (log ++ [(turnId', event)]) turnId := by
  obtain ⟨before, rest, after, rfl, outside, inside, once⟩ := block
  refine ⟨before, rest, after ++ [(turnId', event)], by simp, ?_, inside, once⟩
  intro entry member
  rw [← List.append_assoc] at member
  cases List.mem_append.mp member with
  | inl earlier => exact outside entry earlier
  | inr last => rw [List.mem_singleton.mp last]; exact other

/-- A further event of the turn. -/
theorem IsBlock.next (block : IsBlock log turnId) (current : Current log turnId)
    (continues : event ≠ .turnStarted) (ends : event.IsTerminal → ¬ Ended log turnId) :
    IsBlock (log ++ [(turnId, event)]) turnId := by
  obtain ⟨before, rest, after, rfl, outside, inside, once⟩ := block
  -- The log last spoke of the turn, so nothing follows its block.
  have nothing : after = [] := by
    cases List.eq_nil_or_concat after with
    | inl nil => exact nil
    | inr concat =>
      obtain ⟨init, last, rfl⟩ := concat
      rw [List.concat_eq_append] at current outside
      rw [← List.append_assoc] at current
      exact absurd (current_snoc.mp current) (outside last (by simp))
  subst nothing
  refine ⟨before, rest ++ [(turnId, event)], [], by simp, outside, ?_, ?_⟩
  · intro entry member
    cases List.mem_append.mp member with
    | inl earlier => exact inside entry earlier
    | inr last => rw [List.mem_singleton.mp last]; exact ⟨rfl, continues⟩
  · rw [List.countP_append, List.countP_singleton]
    by_cases terminal : event.IsTerminal
    · have none : rest.countP (fun entry => decide entry.2.IsTerminal) = 0 := by
        rw [List.countP_eq_zero]
        intro entry member isTerminal
        refine ends terminal ⟨entry.2, ?_, by simpa using isTerminal⟩
        rw [← (inside entry member).1]
        simp [member]
      simp [none, terminal]
    · simp [terminal, once]

theorem Conforms.isBlock (conforms : Conforms log) (occurs : Occurs log turnId) :
    IsBlock log turnId := by
  induction conforms using Built.snoc_induction generalizing turnId with
  | empty =>
    obtain ⟨event, member⟩ := occurs
    cases member
  | step before entry built allowed ih =>
    obtain ⟨turnId', event⟩ := entry
    cases allowed_cases allowed with
    | inl starts =>
      obtain ⟨rfl, fresh, _, _⟩ := starts
      cases occurs_snoc.mp occurs with
      | inl earlier =>
        refine (ih earlier).other ?_
        intro same
        exact fresh (same ▸ earlier)
      | inr same =>
        subst same
        exact IsBlock.started fresh
    | inr continues =>
      obtain ⟨notStart, current, allowed⟩ := continues
      by_cases same : turnId = turnId'
      · subst same
        refine (ih current.occurs).next current notStart ?_
        intro terminal
        cases event <;> first | exact allowed | exact terminal.elim
      · have earlier := (occurs_snoc.mp occurs).resolve_right same
        exact (ih earlier).other (Ne.symm same)

/-- A turn ends once. -/
theorem Conforms.terminal_unique {event' : RuntimeEvent} (conforms : Conforms log)
    (logged : (turnId, event) ∈ log) (logged' : (turnId, event') ∈ log)
    (terminal : event.IsTerminal) (terminal' : event'.IsTerminal) : event = event' := by
  obtain ⟨before, rest, after, split, outside, inside, once⟩ := conforms.isBlock ⟨event, logged⟩
  have inRest : ∀ event, (turnId, event) ∈ log → event.IsTerminal →
      (turnId, event) ∈ rest.filter fun entry => decide entry.2.IsTerminal := by
    intro event logged terminal
    apply List.mem_filter.mpr
    refine ⟨?_, by simpa using terminal⟩
    rw [split] at logged
    simp only [List.mem_append, List.mem_cons] at logged
    obtain (earlier | same | member) | later := logged
    · exact absurd rfl (outside _ (List.mem_append_left _ earlier))
    · cases same
      exact terminal.elim
    · exact member
    · exact absurd rfl (outside _ (List.mem_append_right _ later))
  rw [List.countP_eq_length_filter] at once
  have first := inRest event logged terminal
  have second := inRest event' logged' terminal'
  match found : rest.filter fun entry => decide entry.2.IsTerminal with
  | [] => simp [found] at first
  | [entry] =>
    rw [found, List.mem_singleton] at first second
    cases first.trans second.symm
    rfl
  | _ :: _ :: _ => simp [found] at once

/-- Once a turn has ended with every call answered, nothing more is said about it. -/
theorem Conforms.silent_after (conforms : Conforms log)
    (split : log = before ++ (turnId, event) :: after) (terminal : event.IsTerminal)
    (settled : Settled before) : ∀ entry ∈ after, entry.1 ≠ turnId := by
  induction after using List.reverseRecOn generalizing log with
  | nil => simp
  | append_singleton after last ih =>
    have split' : log = (before ++ (turnId, event) :: after) ++ [last] := by simpa using split
    obtain ⟨earlier, allowed⟩ := Built.snoc_iff.mp (split' ▸ conforms)
    have silent := ih earlier rfl
    intro entry member
    cases List.mem_append.mp member with
    | inl old => exact silent entry old
    | inr new =>
      rw [List.mem_singleton.mp new]
      obtain ⟨turnId', event'⟩ := last
      intro same
      have same : turnId' = turnId := same
      subst same
      have ended : Ended (before ++ (turnId', event) :: after) turnId' :=
        ⟨event, by simp, terminal⟩
      cases allowed_cases allowed with
      | inl starts => exact starts.2.1 ⟨event, by simp⟩
      | inr continues =>
        obtain ⟨notStart, _, allowed⟩ := continues
        cases event' with
        | toolReceiptRecorded receipt =>
          -- Only a receipt could follow, but every accepted call has one.
          obtain ⟨⟨⟨call, ⟨message, logged, accepts⟩, sameId, _⟩, unreceipted⟩, _⟩ := allowed
          have accepted : Accepted before turnId' call := by
            refine ⟨message, ?_, accepts⟩
            cases List.mem_append.mp logged with
            | inl old => exact old
            | inr rest =>
              cases List.mem_cons.mp rest with
              | inl same =>
                cases same
                cases event <;> first | exact terminal.elim | cases accepts
              | inr later => exact absurd rfl (silent _ later)
          refine unreceipted ?_
          rw [← sameId]
          exact (settled turnId' call accepted).append _
        | turnStarted => exact notStart rfl
        | threadStarted => exact allowed
        | approvalRequested _ | approvalResolved _ _ | hookFailed _ _ _
        | turnCompleted _ | turnFailed _ | turnCancelled => exact allowed ended
        | userMessage _ | contextCompiled _ _ _ _ | modelRequestStarted _
        | assistantMessage _ _ _ _ | toolPrepared _ | toolExecutionStarted _ =>
          exact allowed.1 ended

end Turns

/-! ## Receipts -/

/-- Whether an event records a receipt for the call `callId` of turn `turnId`. -/
def recordsReceipt (turnId : TurnId) (callId : CallId) : TurnEntry → Bool
  | (turnId', .toolReceiptRecorded receipt) => turnId' = turnId && receipt.callId = callId
  | _ => false

/-- The number of receipts of a call. -/
def receiptCount (log : TurnLog) (turnId : TurnId) (callId : CallId) : Nat :=
  log.countP (recordsReceipt turnId callId)

section Receipts

variable {log before after : TurnLog} {turnId : TurnId} {callId : CallId}
variable {receipt : ToolReceipt}

theorem receiptCount_pos : 0 < receiptCount log turnId callId ↔ Receipted log turnId callId := by
  rw [receiptCount, List.countP_pos_iff]
  constructor
  · intro ⟨⟨turnId', event⟩, member, records⟩
    cases event with
    | toolReceiptRecorded receipt =>
      have same : turnId' = turnId ∧ receipt.callId = callId := by
        simpa [recordsReceipt] using records
      exact ⟨receipt, same.1 ▸ member, same.2⟩
    | _ => cases records
  · intro ⟨receipt, member, same⟩
    exact ⟨_, member, by simp [recordsReceipt, same]⟩

/-- No call has two receipts. -/
theorem Conforms.receiptCount_le_one (conforms : Conforms log) :
    receiptCount log turnId callId ≤ 1 := by
  induction conforms using Built.snoc_induction with
  | empty => simp [receiptCount]
  | step before entry built allowed ih =>
    rw [receiptCount, List.countP_append, List.countP_singleton]
    split
    next records =>
      obtain ⟨turnId', event⟩ := entry
      cases event with
      | toolReceiptRecorded receipt =>
        have same : turnId' = turnId ∧ receipt.callId = callId := by
          simpa [recordsReceipt] using records
        obtain ⟨rfl, rfl⟩ := same
        have unreceipted := allowed.2.1.2
        rw [← receiptCount_pos] at unreceipted
        rw [receiptCount] at unreceipted
        omega
      | _ => cases records
    next other => exact ih

theorem Conforms.receiptCount_eq_one (conforms : Conforms log)
    (receipted : Receipted log turnId callId) : receiptCount log turnId callId = 1 := by
  have some := receiptCount_pos.mpr receipted
  have atMost : receiptCount log turnId callId ≤ 1 := conforms.receiptCount_le_one
  omega

/-- A receipt answers an accepted call, and truthfully: what is denied is never
started, and what succeeded or is unknown was started before with the same action. -/
theorem Conforms.receipt_truthful (conforms : Conforms log)
    (split : log = before ++ (turnId, .toolReceiptRecorded receipt) :: after) :
    (∃ call, Accepted before turnId call ∧ call.id = receipt.callId ∧
      call.name = receipt.toolName) ∧
    (receipt.status = .denied →
      ∀ prepared, Started log turnId prepared → prepared.callId ≠ receipt.callId) ∧
    (receipt.status = .succeeded ∨ receipt.status = .unknown →
      ∃ prepared, Started before turnId prepared ∧ prepared.callId = receipt.callId ∧
        receipt.action = some prepared.action) := by
  obtain ⟨_, ⟨accepted, _⟩, denied, executed⟩ := conforms _ _ _ split
  refine ⟨accepted, ?_, executed⟩
  intro isDenied prepared started
  rw [Started, split] at started
  cases List.mem_append.mp started with
  | inl earlier => exact denied isDenied prepared earlier
  | inr rest =>
    cases List.mem_cons.mp rest with
    | inl same => cases same
    | inr later =>
      -- After its receipt a call no longer awaits anything, so it cannot start.
      obtain ⟨middle, last, rfl⟩ := List.append_of_mem later
      have again : log = (before ++ (turnId, .toolReceiptRecorded receipt) :: middle) ++
          (turnId, .toolExecutionStarted prepared) :: last := by simpa using split
      intro same
      exact (conforms _ _ _ again).2.2.1.2 ⟨receipt, by simp, same.symm⟩

end Receipts

/-! ## Executions -/

/-- An execution that is waiting for its receipt. -/
def InFlight (log : TurnLog) (key : CallKey) : Prop :=
  (∃ prepared, Started log key.1 prepared ∧ prepared.callId = key.2) ∧
    ¬ Receipted log key.1 key.2

/-- At most one execution is in flight. -/
theorem Conforms.inFlight_unique {log : TurnLog} (conforms : Conforms log) {key key' : CallKey}
    (first : InFlight log key) (second : InFlight log key') : key = key' := by
  induction conforms using Built.snoc_induction with
  | empty =>
    obtain ⟨⟨_, started, _⟩, _⟩ := first
    cases started
  | step before entry built allowed ih =>
    obtain ⟨turnId, event⟩ := entry
    have earlier : ∀ key : CallKey, InFlight (before ++ [(turnId, event)]) key →
        InFlight before key ∨ ∃ prepared, event = .toolExecutionStarted prepared ∧
          key = (turnId, prepared.callId) := by
      intro key ⟨⟨prepared, started, same⟩, waits⟩
      rw [receipted_snoc, not_or] at waits
      cases started_snoc.mp started with
      | inl old => exact .inl ⟨⟨prepared, old, same⟩, waits.1⟩
      | inr last =>
        obtain ⟨turn, rfl⟩ := last
        exact .inr ⟨prepared, rfl, Prod.ext turn same.symm⟩
    have none : ∀ prepared, event = .toolExecutionStarted prepared →
        ∀ key, ¬ InFlight before key := by
      intro prepared starts key ⟨⟨prepared', started, same⟩, waits⟩
      subst starts
      exact waits (same ▸ allowed.2.2.2 key.1 prepared' started)
    cases earlier key first with
    | inl old =>
      cases earlier key' second with
      | inl old' => exact ih old old'
      | inr last =>
        obtain ⟨prepared, starts, _⟩ := last
        exact absurd old (none prepared starts key)
    | inr last =>
      obtain ⟨prepared, starts, rfl⟩ := last
      cases earlier key' second with
      | inl old' => exact absurd old' (none prepared starts key')
      | inr last' =>
        obtain ⟨prepared', starts', rfl⟩ := last'
        cases starts.symm.trans starts'
        rfl

end Nausicaa.Core
