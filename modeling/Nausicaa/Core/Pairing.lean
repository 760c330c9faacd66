import Nausicaa.Core.TurnLog

/-! # Call and receipt pairing of transcripts

A transcript is paired when it is a concatenation of groups: a user message, or
an assistant message followed by exactly one receipt for each of its calls.  The
transcript of a conforming log is a sequence of such groups and at most one group
that is still being filled; once every accepted call has its receipt, that group
is complete too (`Conforms.paired`).
-/

namespace Nausicaa.Core

open Interaction (Built)

/-- One user message, or one assistant message with a receipt for each of its calls. -/
def IsGroup (group : List TranscriptMessage) : Prop :=
  (∃ content, group = [.user content]) ∨
  ∃ (content : String) (toolCalls : List ToolCall) (receipts : List ToolReceipt),
    group = .assistant content toolCalls :: receipts.map .tool ∧
    List.Perm (receipts.map ToolReceipt.callId) (toolCalls.map ToolCall.id)

def Paired (transcript : List TranscriptMessage) : Prop :=
  ∃ groups : List (List TranscriptMessage), (∀ group ∈ groups, IsGroup group) ∧
    transcript = groups.flatten

namespace Paired

theorem nil : Paired [] := ⟨[], by simp, rfl⟩

theorem append_group {transcript group : List TranscriptMessage} (paired : Paired transcript)
    (isGroup : IsGroup group) : Paired (transcript ++ group) := by
  obtain ⟨groups, all, rfl⟩ := paired
  refine ⟨groups ++ [group], ?_, by simp⟩
  intro group' member
  cases List.mem_append.mp member with
  | inl earlier => exact all group' earlier
  | inr last => rw [List.mem_singleton.mp last]; exact isGroup

end Paired

/-- The messages of a turn log, in order. -/
def messages (log : TurnLog) : List TranscriptMessage := log.filterMap fun entry => entry.2.message

theorem messages_snoc (log : TurnLog) (turnId : TurnId) (event : RuntimeEvent) :
    messages (log ++ [(turnId, event)]) = messages log ++ event.message.toList := by
  cases shown : event.message <;> simp [messages, shown]

/-- The group of an assistant message while its calls are being handled: `receipts`
answer some of `toolCalls`, and every call without a receipt is one of these. -/
structure OpenGroup (log : TurnLog) (turnId : TurnId) (toolCalls : List ToolCall)
    (receipts : List ToolReceipt) : Prop where
  distinct : (toolCalls.map ToolCall.id).Nodup
  answeredOnce : (receipts.map ToolReceipt.callId).Nodup
  answers : receipts.map ToolReceipt.callId ⊆ toolCalls.map ToolCall.id
  recorded : ∀ receipt ∈ receipts, Receipted log turnId receipt.callId
  answered : ∀ call ∈ toolCalls, Receipted log turnId call.id →
    call.id ∈ receipts.map ToolReceipt.callId
  accepted : ∀ call ∈ toolCalls, Accepted log turnId call
  waiting : ∀ turnId' call, Accepted log turnId' call → ¬ Receipted log turnId' call.id →
    turnId' = turnId ∧ call ∈ toolCalls

/-- The transcript of a log is paired, but for a group that is still being filled. -/
def NearlyPaired (log : TurnLog) : Prop :=
  (Paired (messages log) ∧ Settled log) ∨
  ∃ (closed : List TranscriptMessage) (content : String) (turnId : TurnId)
    (toolCalls : List ToolCall) (receipts : List ToolReceipt), Paired closed ∧
    messages log = closed ++ (.assistant content toolCalls :: receipts.map .tool) ∧
    OpenGroup log turnId toolCalls receipts

section OpenGroup

variable {log : TurnLog} {turnId turnId' : TurnId} {toolCalls : List ToolCall}
variable {receipts : List ToolReceipt}

/-- With every call answered, the open group is complete. -/
theorem OpenGroup.perm (group : OpenGroup log turnId toolCalls receipts) (settled : Settled log) :
    List.Perm (receipts.map ToolReceipt.callId) (toolCalls.map ToolCall.id) := by
  apply (List.perm_ext_iff_of_nodup group.answeredOnce group.distinct).mpr
  intro callId
  refine ⟨fun member => group.answers member, ?_⟩
  intro member
  obtain ⟨call, known, rfl⟩ := List.mem_map.mp member
  exact group.answered call known (settled turnId call (group.accepted call known))

/-- Events that neither accept calls nor record a receipt leave the group as it is. -/
theorem OpenGroup.skip {event : RuntimeEvent} (group : OpenGroup log turnId toolCalls receipts)
    (accepts : event.acceptedCalls = []) (records : ∀ receipt, event ≠ .toolReceiptRecorded receipt) :
    OpenGroup (log ++ [(turnId', event)]) turnId toolCalls receipts where
  distinct := group.distinct
  answeredOnce := group.answeredOnce
  answers := group.answers
  recorded receipt member := (group.recorded receipt member).append _
  answered call member receipted := by
    refine group.answered call member ?_
    simpa [receipted_snoc, records] using receipted
  accepted call member := accepted_snoc.mpr (.inl (group.accepted call member))
  waiting turnId'' call accepted open_ := by
    rw [accepted_snoc, accepts] at accepted
    rw [receipted_snoc, not_or] at open_
    exact group.waiting turnId'' call (by simpa using accepted) open_.1

/-- A receipt for a waiting call joins the group. -/
theorem OpenGroup.receipt {receipt : ToolReceipt}
    (group : OpenGroup log turnId toolCalls receipts)
    (awaits : Awaits log turnId' receipt.callId receipt.toolName) :
    OpenGroup (log ++ [(turnId', .toolReceiptRecorded receipt)]) turnId toolCalls
      (receipts ++ [receipt]) := by
  obtain ⟨⟨call, accepted, sameId, _⟩, open_⟩ := awaits
  obtain ⟨rfl, known⟩ := group.waiting turnId' call accepted (sameId ▸ open_)
  refine ⟨group.distinct, ?_, ?_, ?_, ?_, ?_, ?_⟩
  · rw [List.map_append, List.nodup_append]
    refine ⟨group.answeredOnce, by simp, ?_⟩
    intro callId member callId' last same
    obtain ⟨earlier, recorded, rfl⟩ := List.mem_map.mp member
    have last : callId' = receipt.callId := by simpa using last
    exact open_ (last ▸ same ▸ group.recorded earlier recorded)
  · intro callId member
    rw [List.map_append, List.mem_append] at member
    cases member with
    | inl earlier => exact group.answers earlier
    | inr last =>
      have last : callId = receipt.callId := by simpa using last
      exact List.mem_map.mpr ⟨call, known, by rw [sameId, last]⟩
  · intro receipt' member
    cases List.mem_append.mp member with
    | inl earlier => exact (group.recorded receipt' earlier).append _
    | inr last =>
      rw [List.mem_singleton.mp last]
      exact receipted_snoc.mpr (.inr ⟨rfl, receipt, rfl, rfl⟩)
  · intro call' member receipted
    rw [List.map_append, List.mem_append]
    cases receipted_snoc.mp receipted with
    | inl earlier => exact .inl (group.answered call' member earlier)
    | inr last =>
      obtain ⟨_, receipt', same, sameId'⟩ := last
      cases same
      exact .inr (by simp [sameId'])
  · exact fun call' member => accepted_snoc.mpr (.inl (group.accepted call' member))
  · intro turnId'' call' accepted' open'
    rw [receipted_snoc, not_or] at open'
    refine group.waiting turnId'' call' ?_ open'.1
    simpa [accepted_snoc, RuntimeEvent.acceptedCalls] using accepted'

/-- A new assistant message opens a group with no receipts. -/
theorem OpenGroup.start {content : String} {stopReason : StopReason} {usage : TokenUsage}
    (allowed : AllowedInTurn log turnId (.assistantMessage content toolCalls stopReason usage))
    (unused : ∀ call ∈ toolCalls, ¬ Receipted log turnId call.id) :
    OpenGroup (log ++ [(turnId, .assistantMessage content toolCalls stopReason usage)]) turnId
      toolCalls [] where
  distinct := allowed.2.2.1
  answeredOnce := by simp
  answers := by simp
  recorded := by simp
  answered call member receipted := by
    have earlier : Receipted log turnId call.id := by simpa [receipted_snoc] using receipted
    exact absurd earlier (unused call member)
  accepted call member := accepted_snoc.mpr (.inr ⟨rfl, member⟩)
  waiting turnId' call accepted open_ := by
    rw [receipted_snoc, not_or] at open_
    cases accepted_snoc.mp accepted with
    | inl earlier => exact absurd (allowed.2.1 turnId' call earlier) open_.1
    | inr last => exact last

end OpenGroup

section Conforming

variable {log : TurnLog} {turnId : TurnId}

/-- Receipts are recorded for accepted calls only. -/
theorem accepted_of_receipted (conforms : Conforms log) {callId : CallId}
    (receipted : Receipted log turnId callId) :
    ∃ call, Accepted log turnId call ∧ call.id = callId := by
  obtain ⟨receipt, member, rfl⟩ := receipted
  obtain ⟨before, after, split⟩ := List.append_of_mem member
  obtain ⟨call, ⟨event, known, accepts⟩, same, _⟩ := (conforms before _ after split).2.1.1
  exact ⟨call, ⟨event, split ▸ List.mem_append_left _ known, accepts⟩, same⟩

theorem nearlyPaired (conforms : Conforms log) : NearlyPaired log := by
  induction conforms using Built.snoc_induction with
  | empty => exact .inl ⟨.nil, by intro turnId call accepted; simp [Accepted] at accepted⟩
  | step before entry built allowed ih =>
    obtain ⟨turnId, event⟩ := entry
    unfold NearlyPaired
    rw [messages_snoc]
    -- Before a new message every accepted call is answered, so all groups are closed.
    have closedUp : Settled before → Paired (messages before) := by
      intro settled
      cases ih with
      | inl closed => exact closed.1
      | inr filling =>
        obtain ⟨closed, content, turnId', toolCalls, receipts, paired, shown, group⟩ := filling
        rw [shown]
        exact paired.append_group (.inr ⟨content, toolCalls, receipts, rfl, group.perm settled⟩)
    have skipped : event.acceptedCalls = [] → (∀ receipt, event ≠ .toolReceiptRecorded receipt) →
        event.message = none → NearlyPaired (before ++ [(turnId, event)]) := by
      intro accepts records silent
      unfold NearlyPaired
      rw [messages_snoc, silent]
      simp only [Option.toList_none, List.append_nil]
      cases ih with
      | inl closed =>
        refine .inl ⟨closed.1, ?_⟩
        intro turnId' call accepted
        rw [accepted_snoc, accepts] at accepted
        exact (closed.2 turnId' call (by simpa using accepted)).append _
      | inr filling =>
        obtain ⟨closed, content, turnId', toolCalls, receipts, paired, shown, group⟩ := filling
        exact .inr ⟨closed, content, turnId', toolCalls, receipts, paired, shown,
          group.skip accepts records⟩
    cases event with
    | userMessage content =>
      have settled : Settled before := allowed.2.2
      refine .inl ⟨(closedUp settled).append_group (.inl ⟨content, rfl⟩), ?_⟩
      intro turnId' call accepted
      rw [accepted_snoc] at accepted
      exact (settled turnId' call (by simpa [RuntimeEvent.acceptedCalls] using accepted)).append _
    | assistantMessage content toolCalls stopReason usage =>
      refine .inr ⟨messages before, content, turnId, toolCalls, [], closedUp allowed.2.2.1, rfl,
        OpenGroup.start allowed.2 ?_⟩
      intro call member receipted
      obtain ⟨earlier, accepted, same⟩ := accepted_of_receipted built receipted
      exact allowed.2.2.2.2 call member earlier accepted same
    | toolReceiptRecorded receipt =>
      cases ih with
      | inl closed =>
        obtain ⟨⟨⟨call, accepted, same, _⟩, open_⟩, _⟩ := allowed.2
        exact absurd (same ▸ closed.2 turnId call accepted) open_
      | inr filling =>
        obtain ⟨closed, content, turnId', toolCalls, receipts, paired, shown, group⟩ := filling
        refine .inr ⟨closed, content, turnId', toolCalls, receipts ++ [receipt], paired, ?_,
          group.receipt allowed.2.1⟩
        simp [shown, RuntimeEvent.message]
    | threadStarted | turnStarted | contextCompiled _ _ _ _ | modelRequestStarted _ | toolPrepared _
    | approvalRequested _ | approvalResolved _ _ | toolExecutionStarted _ | hookFailed _ _ _
    | turnCompleted _ | turnFailed _ | turnCancelled =>
      have := skipped rfl (by simp) rfl
      rwa [NearlyPaired, messages_snoc] at this

/-- Once every accepted call has its receipt, the transcript is paired. -/
theorem Conforms.paired (conforms : Conforms log) (settled : Settled log) :
    Paired (messages log) := by
  cases nearlyPaired conforms with
  | inl closed => exact closed.1
  | inr filling =>
    obtain ⟨closed, content, turnId, toolCalls, receipts, paired, shown, group⟩ := filling
    rw [shown]
    exact paired.append_group (.inr ⟨content, toolCalls, receipts, rfl, group.perm settled⟩)

end Conforming

end Nausicaa.Core
