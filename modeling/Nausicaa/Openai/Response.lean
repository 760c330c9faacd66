import Nausicaa.Core.Operation
import Nausicaa.Openai.Stream

/-! # Responses

`parse_response` of `lib.rs`, and what it makes of a body that says a message
(`parseResponse_shown`). -/

namespace Nausicaa.Openai

open Core (ModelError ModelResponse StopReason TokenUsage ToolCall)
open Json (Value)
open Json.Value (asArray asNat asString)

def parseArguments (parse : Parser) (id : String) : Option Value → Except ModelError Value
  | some (.string arguments) =>
    match parse arguments with
    | .error message =>
      .error ⟨"tool call `" ++ id ++ "` has invalid JSON arguments: " ++ message, false⟩
    | .ok value => .ok value
  | some arguments => .ok arguments
  | none => .ok .null

def parseCall (parse : Parser) (call : Value) : Except ModelError ToolCall :=
  match (call.get "id").bind asString with
  | none => .error ⟨"tool call has no id", false⟩
  | some id =>
    match call.get "function" with
    | none => .error ⟨"tool call has no function", false⟩
    | some function =>
      match (function.get "name").bind asString with
      | none => .error ⟨"tool call has no function name", false⟩
      | some name => do
        let arguments ← parseArguments parse id (function.get "arguments")
        return ⟨⟨id⟩, name, arguments⟩

def parseStopReason : String → StopReason
  | "stop" => .endTurn
  | "tool_calls" | "function_call" => .toolUse
  | "length" => .maxTokens
  | _ => .other

def parseUsage (usage : Value) : TokenUsage where
  inputTokens := ((usage.get "prompt_tokens").bind asNat).getD 0
  outputTokens := ((usage.get "completion_tokens").bind asNat).getD 0

def parseContent : Option Value → String
  | some (.string content) => content
  | some (.array parts) => String.join (parts.filterMap fun part =>
    ((part.get "text").bind asString).or part.asString)
  | _ => ""

def parseResponse (parse : Parser) (body : Value) : Except ModelError ModelResponse :=
  match body.get "error" with
  | some failure => .error ⟨"provider error: " ++ failure.text, false⟩
  | none =>
    match ((body.get "choices").bind asArray).bind List.head? with
    | none => .error ⟨"response has no choices", false⟩
    | some choice =>
      match choice.get "message" with
      | none => .error ⟨"choice has no message", false⟩
      | some message => do
        let toolCalls ← (((message.get "tool_calls").bind asArray).getD []).mapM (parseCall parse)
        return {
          content := parseContent (message.get "content")
          toolCalls
          stopReason := parseStopReason (((choice.get "finish_reason").bind asString).getD "")
          usage := parseUsage ((body.get "usage").getD .null) }

/-! ## Messages -/

/-- What the assistant says. -/
structure Message where
  content : String
  calls : List Call
  finishReason : String
  usage : Value

/-- The call with its arguments read. -/
def Call.toolCall (parse : Parser) (call : Call) : Except ModelError ToolCall := do
  let arguments ← parseArguments parse call.id (some (.string call.arguments))
  return ⟨⟨call.id⟩, call.name, arguments⟩

/-- What a message means. -/
def Message.response (message : Message) (parse : Parser) : Except ModelError ModelResponse := do
  let toolCalls ← message.calls.mapM (Call.toolCall parse)
  return ⟨message.content, toolCalls, parseStopReason message.finishReason,
    parseUsage message.usage⟩

/-- A JSON value that says a call. -/
structure Call.Shown (call : Call) (value : Value) : Prop where
  id : value.get "id" = some (.string call.id)
  function : ∃ function, value.get "function" = some function ∧
    function.get "name" = some (.string call.name) ∧
    function.get "arguments" = some (.string call.arguments)

/-- A member that says nothing. -/
def Silent (member : Option Value) : Prop := member = none ∨ member = some .null

/-- A choice that says a message. -/
structure Message.Chosen (message : Message) (choice : Value) : Prop where
  reason : choice.get "finish_reason" = some (.string message.finishReason)
  message : ∃ said, choice.get "message" = some said ∧
    (said.get "content" = some (.string message.content) ∨
      (message.content = "" ∧ Silent (said.get "content"))) ∧
    ((∃ values, said.get "tool_calls" = some (.array values) ∧
        List.Forall₂ Call.Shown message.calls values) ∨
      (message.calls = [] ∧ Silent (said.get "tool_calls")))

/-- A response body that says a message; it may hold anything else. -/
structure Message.Shown (message : Message) (body : Value) : Prop where
  error : body.get "error" = none
  usage : body.get "usage" = some message.usage
  choice : ∃ choice others, body.get "choices" = some (.array (choice :: others)) ∧
    message.Chosen choice

section Shown

variable {parse : Parser} {message : Message} {body : Value}

theorem parseCall_shown {call : Call} {value : Value} (shown : call.Shown value) :
    parseCall parse value = call.toolCall parse := by
  obtain ⟨id, function, found, name, arguments⟩ := shown
  rw [parseCall, id]
  simp only [Option.bind_some, asString, found, name, arguments]
  rfl

theorem parseCalls_shown {calls : List Call} {values : List Value}
    (shown : List.Forall₂ Call.Shown calls values) :
    values.mapM (parseCall parse) = calls.mapM (Call.toolCall parse) := by
  induction shown with
  | nil => rfl
  | cons first _ ih => rw [List.mapM_cons, List.mapM_cons, parseCall_shown first, ih]

/-- A body is parsed to what its message means. -/
theorem parseResponse_shown (shown : message.Shown body) :
    parseResponse parse body = message.response parse := by
  obtain ⟨error, usage, choice, others, found, reason, said, spoken, content, calls⟩ := shown
  have text : parseContent (said.get "content") = message.content := by
    obtain given | ⟨empty, none | null⟩ := content
    · rw [given, parseContent]
    · rw [none, empty]
      rfl
    · rw [null, empty]
      rfl
  have called : (((said.get "tool_calls").bind asArray).getD []).mapM (parseCall parse) =
      message.calls.mapM (Call.toolCall parse) := by
    obtain ⟨values, given, each⟩ | ⟨empty, none | null⟩ := calls
    · rw [given]
      exact parseCalls_shown each
    · rw [none, empty]
      rfl
    · rw [null, empty]
      rfl
  rw [parseResponse, error]
  simp only [found, Option.bind_some, asArray, List.head?_cons, spoken, called, text, reason,
    asString, Option.getD_some, usage]
  rfl

end Shown

end Nausicaa.Openai
