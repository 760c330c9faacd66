import Nausicaa.Context.Compilers
import Nausicaa.Core.Compiling
import Nausicaa.Openai.Request

/-! # Conversations on the wire

What the provider is sent.  Whatever compilers are wrapped around each other, behind the system
messages of every request stand whole rounds: a message of the user, or one of the assistant with
one tool message for each of its calls (`conversations`). -/

namespace Nausicaa.Openai

open Context (Compiler Compiles Retains)
open Core
open Interaction (Contract)
open Json (Value)
open Json.Value (ofMap)
open Memory (Unicode)
open Std (TreeMap)

/-! ## Conversations -/

/-- The ids of the calls that a message makes. -/
def callIds (message : Value) : List (Option Value) :=
  match message.get "tool_calls" with
  | some (.array calls) => calls.map fun call => call.get "id"
  | _ => []

/-- A message of the user, or one of the assistant with one answer for each of its calls. -/
inductive IsRound : List Value → Prop where
  | user {message : Value} (role : message.get "role" = some (.string "user")) : IsRound [message]
  | assistant {message : Value} {answers : List Value}
      (role : message.get "role" = some (.string "assistant"))
      (tools : ∀ answer ∈ answers, answer.get "role" = some (.string "tool"))
      (answered : (answers.map fun answer => answer.get "tool_call_id").Perm (callIds message)) :
      IsRound (message :: answers)

/-- System messages, and then rounds. -/
def Converses (body : Value) : Prop :=
  ∃ (prompt : List Value) (rounds : List (List Value)),
    body.get "messages" = some (.array (prompt ++ rounds.flatten)) ∧
    (∀ message ∈ prompt, message.get "role" = some (.string "system")) ∧
    ∀ round ∈ rounds, IsRound round

section Messages

variable {serialize : Value → String} {group messages : List TranscriptMessage}

theorem callIds_assistant {content : String} {toolCalls : List ToolCall} :
    callIds (transcriptMessage serialize (.assistant content toolCalls)) =
      toolCalls.map fun call => some (.string call.id.value) := by
  cases toolCalls with
  | nil => rfl
  | cons call calls => simp [callIds, transcriptMessage, callMessage, Value.get]

theorem round_of_group (isGroup : IsGroup group) :
    IsRound (group.map (transcriptMessage serialize)) := by
  obtain ⟨content, rfl⟩ | ⟨content, toolCalls, receipts, rfl, answers⟩ := isGroup
  · exact .user rfl
  · apply IsRound.assistant
    · cases toolCalls <;> rfl
    · simp [transcriptMessage, Value.get]
    · have ids : ∀ receipt, (transcriptMessage serialize (.tool receipt)).get "tool_call_id" =
          some (.string receipt.callId.value) := fun _ => rfl
      have answered := answers.map fun id => some (Value.string id.value)
      rw [callIds_assistant]
      simpa [ids, Function.comp_def] using answered

theorem paired_rounds (paired : Paired messages) :
    ∃ rounds : List (List Value), messages.map (transcriptMessage serialize) = rounds.flatten ∧
      ∀ round ∈ rounds, IsRound round := by
  obtain ⟨groups, complete, rfl⟩ := paired
  refine ⟨groups.map (List.map (transcriptMessage serialize)), List.map_flatten, ?_⟩
  intro round member
  obtain ⟨group, present, rfl⟩ := List.mem_map.mp member
  exact round_of_group (complete group present)

end Messages

/-! ## The body -/

section Body

variable {adapter : OpenAiCompatibleAdapter} {serialize : Value → String}
variable {request : ModelRequest} {body body' : TreeMap String Value} {http : HttpRequest}

theorem streamingBody_messages : (adapter.streamingBody body)["messages"]? = body["messages"]? := by
  unfold OpenAiCompatibleAdapter.streamingBody
  split <;> simp [TreeMap.getElem?_insert, TreeMap.getElem?_erase]

theorem budgetedBody_messages (budgeted : adapter.budgetedBody body = .ok body') :
    body'["messages"]? = body["messages"]? := by
  unfold OpenAiCompatibleAdapter.budgetedBody at budgeted
  split at budgeted
  · cases budgeted
    rfl
  · dsimp only at budgeted
    split at budgeted
    · cases budgeted
    · split at budgeted
      · split at budgeted
        · rw [countInput_ok budgeted]
        · cases budgeted
      · rw [countInput_ok budgeted]
        simp [TreeMap.getElem?_insert]

/-- No extension of the body and no budget touches the messages. -/
theorem httpRequest_messages (sent : adapter.httpRequest serialize request = .ok http) :
    http.body.get "messages" = some (.array (request.context.prompt.map promptMessage ++
      request.context.messages.map (transcriptMessage serialize))) := by
  unfold OpenAiCompatibleAdapter.httpRequest at sent
  obtain ⟨body, budgeted, same⟩ := Fallible.bind_ok.mp sent
  cases same
  rw [Value.get_ofMap, budgetedBody_messages budgeted, streamingBody_messages]
  unfold OpenAiCompatibleAdapter.requestBody
  by_cases nothing : request.tools.isEmpty = true <;> 
    simp [nothing, TreeMap.getElem_insert]

end Body

/-! ## From the compiler to the wire -/

/-- What a request looks like on the wire, and the transcript that is behind it. -/
structure Sent (serialize : Value → String) (request : ModelRequest) (body : Value) : Prop where
  converses : Converses body
  messages : body.get "messages" = some (.array (request.context.prompt.map promptMessage ++
    request.context.messages.map (transcriptMessage serialize)))
  retained : ∃ transcript, Paired transcript ∧ Retains transcript request.context.messages

/-- In every run every request is a conversation, whatever is wrapped around which compiler and
whatever the configuration of the provider adds. -/
theorem conversations {rt : AgentRuntime} {config : RuntimeConfiguration} {task : RuntimeTask}
    {compiler : Compiler} {serialize : Value → String} {debug : TranscriptMessage → String}
    {unicode : Unicode} {adapter : OpenAiCompatibleAdapter} {request : ModelRequest}
    {control : ModelControl} {http : HttpRequest}
    {resume : Except ModelError ModelResponse →
      Interaction.Program Operation Answer (Except RuntimeError Core.Reply)}
    (running : RunningWith (Compiles serialize debug unicode compiler) rt World.empty config)
    (member : task ∈ config.tasks)
    (asks : task.program = some (.ask (.completeControlled request control) resume))
    (sent : adapter.httpRequest serialize request = .ok http) :
    Sent serialize request http.body := by
  obtain ⟨transcript, paired, compiled⟩ := running.sends member asks
  have retains : Retains transcript request.context.messages := compiled.retains rfl
  have messages := httpRequest_messages sent
  obtain ⟨rounds, same, complete⟩ :=
    @paired_rounds serialize _ (retains.paired paired)
  refine ⟨⟨request.context.prompt.map promptMessage, rounds, ?_, ?_, complete⟩, messages,
    transcript, paired, retains⟩
  · rw [messages, same]
  · intro message member
    obtain ⟨segment, _, rfl⟩ := List.mem_map.mp member
    rfl

namespace Sample

def streams : OpenAiCompatibleAdapter where
  streaming := true
  config := ⟨"https://example.test", "model", none, none, 120, ∅⟩
  requestBudget := none

/-- A turn whose model is asked for the second time. -/
def iterating : RuntimeConfiguration :=
  Core.Sample.after .ask (.ok ()) (Core.Sample.turn 43)

end Sample

/-- Behind an assistant message with two calls. -/
theorem conversations_iterating : ∃ request http, request.context.messages.length = 4 ∧
    Sample.streams.httpRequest (fun _ => "") request = .ok http ∧
      Sent (fun _ => "") request http.body := by
  have running : RunningWith
      (Compiles (fun _ => "") (fun _ => "") Memory.Sample.unicode (.layered ⟨[], none⟩))
      (Core.Sample.runtime .ask) World.empty Sample.iterating := by
    refine @Schedule.play_with _ _ _ (Core.Sample.around (.ok ())) (Core.Sample.turn 43) _ ?_ rfl
    intro input
    exact .layered _ _
  obtain ⟨task, present, request, control, resume, asks, shown⟩ : ∃ task,
      Sample.iterating.tasks[1]? = some task ∧ ∃ request control resume,
        task.program = some (.ask (.completeControlled request control) resume) ∧
          request.context.messages.length = 4 := ⟨_, rfl, _, _, _, rfl, rfl⟩
  obtain ⟨http, sent⟩ : ∃ http, Sample.streams.httpRequest (fun _ => "") request = .ok http :=
    ⟨_, rfl⟩
  exact ⟨request, http, shown, sent,
    conversations running (List.mem_of_getElem? present) asks sent⟩

end Nausicaa.Openai
