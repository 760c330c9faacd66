import Nausicaa.Core.Tool
import Nausicaa.Json.Members
import Nausicaa.Json.Text
import Nausicaa.Text.Trim
import Nausicaa.Text.Utf8

/-! # The stream decoder

`stream.rs`.  `serde_json::from_str` is a parameter.  Who gets an error drops the decoder, so
that an error does not carry the state. -/

namespace Nausicaa.Openai

open Json (Value)
open Json.Value (asArray asNat asString)
open Text (stripPrefix trim trimEnd)
open Std (TreeMap)

abbrev Bytes := List UInt8

/-- `serde_json::from_str`, with the text of its error. -/
abbrev Parser := String → Except String Value

inductive TransportError where
  | io (message : String)
  | protocol (message : String)
  | http (status : Nat) (body : String)
  deriving DecidableEq

def maxFrame : Nat := 1048576

def newline : UInt8 := 0x0A

structure Call where
  id : String := ""
  name : String := ""
  arguments : String := ""
  deriving DecidableEq

structure Decoder where
  pending : Bytes := []
  data : String := ""
  content : String := ""
  calls : TreeMap Nat Call := ∅
  finishReason : Option String := none
  usage : Value := .null
  done : Bool := false
  /-- What the callback `text` was given. -/
  drafts : List String := []

def error {α : Type} (message : String) : Except TransportError α := .error (.protocol message)

/-- The text to append for a member that can be missing or null. -/
def fragment (value : Value) (key message : String) : Except TransportError String :=
  match value.present key with
  | none => .ok ""
  | some item =>
    match item.asString with
    | some text => .ok text
    | none => error message

def toolIndex (call : Value) : Except TransportError Nat :=
  match ((call.get "index").bind asNat).filter (· < 128) with
  | some index => .ok index
  | none => error "stream tool index must be below 128"

def checkType (call : Value) : Except TransportError Unit :=
  if (call.present "type").any fun kind => kind.asString ≠ some "function" then
    error "unsupported streamed tool type"
  else .ok ()

/-- The pieces of the name and of the arguments. -/
def functionDelta (call : Value) : Except TransportError (String × String) :=
  match call.get "function" with
  | none => .ok ("", "")
  | some function => do
    let name ← fragment function "name" "invalid streamed function name"
    let arguments ← fragment function "arguments" "invalid streamed arguments fragment"
    return (name, arguments)

namespace Decoder

def call (decoder : Decoder) (call : Value) : Except TransportError Decoder := do
  let index ← toolIndex call
  let collected := decoder.calls.getD index {}
  let id ← fragment call "id" "invalid stream call id"
  checkType call
  let (name, arguments) ← functionDelta call
  return { decoder with calls := decoder.calls.insert index {
    id := collected.id ++ id
    name := collected.name ++ name
    arguments := collected.arguments ++ arguments } }

def draft (decoder : Decoder) (content : String) : Decoder :=
  if content = "" then decoder
  else { decoder with
    content := decoder.content ++ content, drafts := decoder.drafts ++ [content] }

def delta (decoder : Decoder) (delta : Value) : Except TransportError Decoder := do
  let content ← fragment delta "content" "stream text delta must be a string"
  let decoder := decoder.draft content
  if (delta.get "function_call").isSome then
    error "legacy streamed function_call is unsupported"
  else
    match delta.get "tool_calls" with
    | none => .ok decoder
    | some calls =>
      match calls.asArray with
      | none => error "stream tool_calls must be an array"
      | some calls => calls.foldlM call decoder

def close (decoder : Decoder) (choice : Value) : Except TransportError Decoder :=
  match choice.present "finish_reason" with
  | none => .ok decoder
  | some reason =>
    match reason.asString with
    | some reason => .ok { decoder with finishReason := some reason }
    | none => error "invalid stream finish reason"

def choice (decoder : Decoder) (choice : Value) : Except TransportError Decoder :=
  if (choice.get "index").bind asNat ≠ some 0 then error "unexpected stream choice index"
  else if decoder.finishReason.isSome then error "choice data followed its finish reason"
  else do
    let decoder ← (choice.get "delta").elim (.ok decoder) decoder.delta
    decoder.close choice

def frame (decoder : Decoder) (frame : Value) : Except TransportError Decoder :=
  match frame.get "error" with
  | some failure => error ("provider stream error: " ++ failure.text)
  | none =>
    match (frame.get "choices").bind asArray with
    | none => error "stream frame has no choices"
    | some choices =>
      if choices.length > 1 then error "multiple streaming choices are unsupported"
      else choices.foldlM choice
        { decoder with usage := (frame.present "usage").getD decoder.usage }

/-- An event that is complete. -/
def event (parse : Parser) (decoder : Decoder) (data : String) : Except TransportError Decoder :=
  if trim Core.isWhitespace data = "[DONE]" then
    if decoder.finishReason.isNone then error "stream ended without a finish reason"
    else .ok { decoder with done := true }
  else
    match parse data with
    | .error message => error ("invalid stream JSON: " ++ message)
    | .ok value => decoder.frame value

def dispatch (parse : Parser) (decoder : Decoder) : Except TransportError Decoder :=
  if decoder.data = "" then .ok decoder
  else event parse { decoder with data := "" } decoder.data

def line (parse : Parser) (decoder : Decoder) (line : String) : Except TransportError Decoder :=
  if line = "" then decoder.dispatch parse
  else
    match stripPrefix "data:" line with
    | some data =>
      if decoder.done then error "stream data followed [DONE]"
      else
        let data := decoder.data ++ (stripPrefix " " data).getD data ++ "\n"
        if data.utf8ByteSize > maxFrame then error "stream event exceeds 1 MiB"
        else .ok { decoder with data := data }
    | none => .ok decoder

/-- The line that is pending. -/
def endLine (parse : Parser) (decoder : Decoder) (message : String) :
    Except TransportError Decoder :=
  match Text.decode decoder.pending with
  | none => error message
  | some text => line parse { decoder with pending := [] } (trimEnd '\r' text)

def push (parse : Parser) (decoder : Decoder) : Bytes → Except TransportError Decoder
  | [] => .ok decoder
  | byte :: bytes =>
    if byte = newline then do
      let decoder ← decoder.endLine parse "stream contains invalid UTF-8"
      decoder.push parse bytes
    else if (decoder.pending ++ [byte]).length > maxFrame then
      error "stream line exceeds 1 MiB"
    else push parse { decoder with pending := decoder.pending ++ [byte] } bytes

end Decoder

def Call.toJson (call : Call) : Value := .object [
  ("id", .string call.id),
  ("type", .string "function"),
  ("function", .object [("name", .string call.name), ("arguments", .string call.arguments)])]

/-- The loop in `finish`. -/
def completeCalls (expected : Nat) : List (Nat × Call) → Except TransportError (List Value)
  | [] => .ok []
  | (index, call) :: rest =>
    if index ≠ expected ∨ call.id = "" ∨ call.name = "" ∨ call.arguments = "" then
      error "incomplete streamed tool call"
    else do
      let calls ← completeCalls (expected + 1) rest
      return call.toJson :: calls

namespace Decoder

/-- The body that `finish` returns. -/
def body (decoder : Decoder) (calls : List Value) : Value := .object [
  ("choices", .array [.object [
    ("message", .object [("content", .string decoder.content), ("tool_calls", .array calls)]),
    ("finish_reason", (decoder.finishReason.map Value.string).getD .null)]]),
  ("usage", decoder.usage)]

/-- The line that the stream ends in. -/
def lastLine (parse : Parser) (decoder : Decoder) : Except TransportError Decoder :=
  if decoder.pending = [] then .ok decoder else decoder.endLine parse "truncated UTF-8 stream"

/-- What `finish` makes of the events. -/
def complete (decoder : Decoder) : Except TransportError Value :=
  if decoder.done then do
    let calls ← completeCalls 0 decoder.calls.toList
    return decoder.body calls
  else error "incomplete stream: missing [DONE]"

def finish (parse : Parser) (decoder : Decoder) : Except TransportError Value := do
  let decoder ← decoder.lastLine parse
  let decoder ← decoder.dispatch parse
  decoder.complete

/-- What the transport does with the chunks of a body. -/
def pushes (parse : Parser) (decoder : Decoder) (chunks : List Bytes) :
    Except TransportError Decoder :=
  chunks.foldlM (push parse) decoder

end Decoder

/-- A stream from its first chunk to its last. -/
def decode (parse : Parser) (chunks : List Bytes) : Except TransportError Value := do
  let decoder ← Decoder.pushes parse {} chunks
  decoder.finish parse

end Nausicaa.Openai
