import Nausicaa.Core.Pairing
import Nausicaa.Grouping.Greedy

/-! # Compaction of transcripts

`compact_transcript` of `context-fs/src/lib.rs` keeps the last groups of a transcript: a message, and
behind an assistant message up to one receipt for each of its calls. -/

namespace Nausicaa.ContextFs

open Core (IsGroup Paired ToolCall ToolReceipt TranscriptMessage)
open Grouping (groups lastGroups)

def expectedReceipts : TranscriptMessage → Nat
  | .assistant _ toolCalls => toolCalls.length
  | .user _ | .tool _ => 0

def isReceipt : TranscriptMessage → Bool
  | .tool _ => true
  | .user _ | .assistant _ _ => false

/-- The groups that the loop over the messages collects. -/
def transcriptGroups (messages : List TranscriptMessage) : List (List TranscriptMessage) :=
  groups expectedReceipts isReceipt messages

/-- The messages that are retained, and the number of groups that are omitted. -/
def compactTranscript (messages : List TranscriptMessage) (maximumGroups : Nat) :
    List TranscriptMessage × Nat :=
  lastGroups expectedReceipts isReceipt messages maximumGroups

/-- A user message, or an assistant message with as many receipts as calls. -/
inductive Exchange : List TranscriptMessage → Prop where
  | user (content : String) : Exchange [.user content]
  | assistant (content : String) (toolCalls : List ToolCall) (receipts : List ToolReceipt)
      (answered : receipts.length = toolCalls.length) :
      Exchange (.assistant content toolCalls :: receipts.map .tool)

section Groups

variable {transcript group : List TranscriptMessage} {exchanges : List (List TranscriptMessage)}
variable {maximum : Nat}

theorem receipts_follow (receipts : List ToolReceipt) :
    ∀ message ∈ receipts.map TranscriptMessage.tool, isReceipt message = true := by
  simp [isReceipt]

theorem Exchange.of_group (isGroup : IsGroup group) : Exchange group := by
  obtain ⟨content, rfl⟩ | ⟨content, toolCalls, receipts, rfl, answers⟩ := isGroup
  · exact .user content
  · exact .assistant content toolCalls receipts (by simpa using answers.length_eq)

theorem Exchange.groups_append (exchange : Exchange group) (rest : List TranscriptMessage) :
    transcriptGroups (group ++ rest) = group :: transcriptGroups rest := by
  cases exchange with
  | user content =>
    exact Grouping.groups_full (by simp : ∀ follower ∈ [], isReceipt follower = true) rfl
  | assistant content toolCalls receipts answered =>
    exact Grouping.groups_full (receipts_follow receipts) (by simpa [expectedReceipts] using answered)

/-- The groups of a transcript of exchanges are the exchanges. -/
theorem groups_exchanges (complete : ∀ exchange ∈ exchanges, Exchange exchange) :
    transcriptGroups exchanges.flatten = exchanges := by
  induction exchanges with
  | nil => rfl
  | cons exchange exchanges ih =>
    have later := ih fun other member => complete other (List.mem_cons_of_mem _ member)
    rw [List.flatten_cons, (complete exchange List.mem_cons_self).groups_append, later]

theorem compact_exchanges (complete : ∀ exchange ∈ exchanges, Exchange exchange) :
    (compactTranscript exchanges.flatten maximum).1 =
      (exchanges.drop (exchanges.length - maximum)).flatten := by
  have found := groups_exchanges complete
  rw [transcriptGroups] at found
  rw [compactTranscript, lastGroups, found]

theorem compact_paired (paired : Paired transcript) :
    Paired (compactTranscript transcript maximum).1 := by
  obtain ⟨parts, complete, rfl⟩ := paired
  refine ⟨parts.drop (parts.length - maximum), ?_, ?_⟩
  · intro part member
    exact complete part (List.mem_of_mem_drop member)
  · exact compact_exchanges fun part member => .of_group (complete part member)

end Groups

/-! ## What is retained -/

/-- What compaction of a transcript to so many groups makes of it. -/
structure Compacts (transcript : List TranscriptMessage) (maximum : Nat)
    (retained : List TranscriptMessage) (omitted : Nat) : Prop where
  suffix : retained <:+ transcript
  groups : transcriptGroups retained = (transcriptGroups transcript).drop omitted
  count : (transcriptGroups retained).length = min maximum (transcriptGroups transcript).length
  total : omitted + (transcriptGroups retained).length = (transcriptGroups transcript).length
  /-- A message and the receipts behind it are retained together, or omitted together. -/
  together : ∀ before content toolCalls receipts after,
    transcript = before ++ .assistant content toolCalls ::
      (List.map TranscriptMessage.tool receipts ++ after) →
    receipts.length ≤ toolCalls.length →
    retained <:+ after ∨
      .assistant content toolCalls :: (List.map TranscriptMessage.tool receipts ++ after) <:+ retained
  exchanges : ∀ exchanges : List (List TranscriptMessage), (∀ exchange ∈ exchanges, Exchange exchange) →
    transcript = exchanges.flatten → retained = (exchanges.drop omitted).flatten
  paired : Paired transcript → Paired retained
  again : ∀ maximum', (compactTranscript retained maximum').1 =
    (compactTranscript transcript (min maximum maximum')).1

theorem compactTranscript_compacts (transcript : List TranscriptMessage) (maximum : Nat) :
    Compacts transcript maximum (compactTranscript transcript maximum).1
      (compactTranscript transcript maximum).2 := by
  have kept : transcriptGroups (compactTranscript transcript maximum).1 =
      (transcriptGroups transcript).drop ((transcriptGroups transcript).length - maximum) :=
    Grouping.lastGroups_groups transcript maximum
  refine ⟨Grouping.drop_suffix _ _, kept, ?_, ?_, ?_, ?_, compact_paired, ?_⟩
  · rw [kept, List.length_drop]
    omega
  · show (transcriptGroups transcript).length - maximum + _ = _
    rw [kept, List.length_drop]
    omega
  · intro before content toolCalls receipts after split bounded
    apply Grouping.drop_together _ split rfl (receipts_follow receipts)
    simpa [expectedReceipts] using bounded
  · intro exchanges complete split
    subst split
    have found := groups_exchanges complete
    rw [compact_exchanges complete]
    show _ = (exchanges.drop ((transcriptGroups exchanges.flatten).length - maximum)).flatten
    rw [found]
  · exact Grouping.lastGroups_again transcript maximum

end Nausicaa.ContextFs
