import Nausicaa.Interaction.Evaluation
import Nausicaa.Server.Polling
import Nausicaa.Server.Turns

/-! # Requests and responses

`handle_value`, `serve` and `dispatch` of `app-server/src/lib.rs`.  A line that is not JSON, or that
has an id, is answered once and with its id, in the order of the lines; nothing else is
(`serve_responds`). -/

namespace Nausicaa.Server

open Core (CancellationToken EventEnvelope RecoveryReport RuntimeError ThreadId ToolReceipt TurnId)
open Interaction (Fallible Program evaluate outcome request)
open Json (Value)

/-! ## Operations -/

/-- What a request asks of the runtime and of the map of turns. -/
inductive RpcOp where
  | startThread
  | events (threadId : ThreadId)
  | recover (threadId : ThreadId)
  /-- A new turn id and a new token. -/
  | newTurn
  | insertTurn (turnId : TurnId) (control : TurnControl)
  | getTurn (turnId : TurnId)
  | cancel (cancellation : CancellationToken)
  | spawnTurn (threadId : ThreadId) (turnId : TurnId) (input : String)
      (cancellation : CancellationToken)

/-- The lock of the turns that is poisoned. -/
inductive Poisoned where
  | poisoned

abbrev RpcOp.Answer : RpcOp → Type
  | .startThread => Except RuntimeError ThreadId
  | .events _ => Except RuntimeError (List EventEnvelope)
  | .recover _ => Except RuntimeError RecoveryReport
  | .newTurn => TurnId × CancellationToken
  | .insertTurn _ _ => Except Poisoned Unit
  | .getTurn _ => Except Poisoned (Option TurnControl)
  | .cancel _ | .spawnTurn .. => Unit

abbrev RpcCode (ε : Type) := Fallible RpcOp RpcOp.Answer ε

/-! ## Dispatch -/

def RpcError.invalidRequest (message : String) : RpcError := ⟨-32600, message⟩

def RpcError.poisoned : RpcError := .internal "turn state lock was poisoned"

def turnParam (params : Value) : Except RpcError TurnId :=
  match (params.get "turn_id").bind Value.asString with
  | some turnId => .ok ⟨turnId⟩
  | none => .error (.invalidParams "turn_id must be a string")

/-- `map_err(runtime_error)?`. -/
def ran {α : Type} : Except RuntimeError α → RpcCode RpcError α
  | .ok value => pure value
  | .error error => throw (.internal error.toString)

def checked {α : Type} : Except RpcError α → RpcCode RpcError α
  | .ok value => pure value
  | .error error => throw error

def locked {α : Type} : Except Poisoned α → RpcCode RpcError α
  | .ok value => pure value
  | .error .poisoned => throw .poisoned

def TurnRunState.toJson : TurnRunState → Value
  | .running => .object [("status", .string "running")]
  | .completed content => .object [("content", .string content), ("status", .string "completed")]
  | .failed error => .object [("error", .string error), ("status", .string "failed")]
  | .cancelled => .object [("status", .string "cancelled")]

def reportJson (report : RecoveryReport) : Value := .object [
  ("receipts_recorded", .array (report.receiptsRecorded.map ToolReceipt.toJson)),
  ("turns_marked_failed", .array (report.turnsMarkedFailed.map Core.Id.toJson))]

def getControl (turnId : TurnId) : RpcCode RpcError TurnControl := do
  match ← locked (← request (RpcOp.getTurn turnId)) with
  | some control => return control
  | none => throw (.invalidParams "turn does not exist")

def startTurn (params : Value) : RpcCode RpcError Value := do
  let threadId ← checked (threadParam params)
  let _ ← ran (← request (RpcOp.events threadId))
  match (params.get "input").bind Value.asString with
  | none => throw (.invalidParams "input must be a string")
  | some input =>
    let (turnId, cancellation) ← request RpcOp.newTurn
    locked (← request (RpcOp.insertTurn turnId ⟨threadId, cancellation, .running⟩))
    request (RpcOp.spawnTurn threadId turnId input cancellation)
    return .object [("thread_id", threadId.toJson), ("turn_id", turnId.toJson)]

def dispatch (value : Value) : RpcCode RpcError Value := do
  if (value.get "jsonrpc").bind Value.asString ≠ some "2.0" then
    throw (.invalidRequest "jsonrpc must be `2.0`")
  else match (value.get "method").bind Value.asString with
  | none => throw (.invalidRequest "method must be a string")
  | some method =>
    let params := (value.get "params").getD .null
    match method with
    | "server/health" => return .object [("status", .string "ok")]
    | "thread/start" =>
      let threadId ← ran (← request RpcOp.startThread)
      return .object [("thread_id", threadId.toJson)]
    | "thread/events" =>
      let threadId ← checked (threadParam params)
      let afterSequence := (params.get "after_sequence").bind Value.asNat
      let events ← ran (← request (RpcOp.events threadId))
      return .array ((events.filter fun event =>
        afterSequence.all fun sequence => event.sequence > sequence).map EventEnvelope.toJson)
    | "thread/recover" =>
      let threadId ← checked (threadParam params)
      let report ← ran (← request (RpcOp.recover threadId))
      return reportJson report
    | "turn/start" => startTurn params
    | "turn/status" =>
      let turnId ← checked (turnParam params)
      let control ← getControl turnId
      return .object [("state", control.state.toJson), ("thread_id", control.threadId.toJson),
        ("turn_id", turnId.toJson)]
    | "turn/cancel" =>
      let turnId ← checked (turnParam params)
      let control ← getControl turnId
      if control.state ≠ .running then throw (.invalidParams "turn is not running")
      else
        request (RpcOp.cancel control.cancellation)
        return .object [("cancellation_requested", .bool true), ("turn_id", turnId.toJson)]
    | method => throw ⟨-32601, s!"method `{method}` was not found"⟩

/-! ## Lines -/

def failure (id : Value) (error : RpcError) : Value := .object [
  ("error", .object [("code", .number (.negInt error.code)), ("message", .string error.message)]),
  ("id", id), ("jsonrpc", .string "2.0")]

def success (id result : Value) : Value := .object [
  ("id", id), ("jsonrpc", .string "2.0"), ("result", result)]

def response (id : Value) : Except RpcError Value → Value
  | .ok result => success id result
  | .error error => failure id error

inductive ServerError where
  | input (message : String)
  | output (message : String)

section Serve

variable {σ ω : Type} (runtime : σ → (op : RpcOp) → op.Answer × σ)
variable (write : ω → Value → Except String ω) (parse : String → Except String Value)

def handleValue (value : Value) (state : σ) : Option Value × σ :=
  let (result, state) := evaluate runtime (dispatch value) state
  ((value.get "id").map fun id => response id result, state)

/-- What is written for a line that is not blank. -/
def handleLine (line : String) (state : σ) : Option Value × σ :=
  match parse line with
  | .error message => (some (failure .null ⟨-32700, message⟩), state)
  | .ok value => handleValue runtime value state

/-- `serve`, on what the reader gives line by line. -/
def serve : List (Except String String) → σ → ω → Except ServerError Unit × σ × ω
  | [], state, output => (.ok (), state, output)
  | .error message :: _, state, output => (.error (.input message), state, output)
  | .ok line :: lines, state, output =>
    if Core.isBlank line then serve lines state output
    else match handleLine runtime parse line state with
    | (none, state) => serve lines state output
    | (some response, state) =>
      match write output response with
      | .error message => (.error (.output message), state, output)
      | .ok output => serve lines state output

end Serve

/-! ## Which lines are answered -/

section Answers

variable {σ : Type} (runtime : σ → (op : RpcOp) → op.Answer × σ)
variable (parse : String → Except String Value)

/-- A writer that takes every line. -/
def collect (written : List Value) (response : Value) : Except String (List Value) :=
  .ok (written ++ [response])

/-- An object with the version, a string as its method and no id. -/
def Notification (value : Value) : Prop :=
  (∃ members, value = .object members) ∧ value.get "jsonrpc" = some (.string "2.0") ∧
    (∃ method, value.get "method" = some (.string method)) ∧ value.get "id" = none

/-- The id of a request, and null for a line without one. -/
def idOf (line : String) : Value :=
  match parse line with
  | .ok value => (value.get "id").getD .null
  | .error _ => .null

/-- A response to a line: its id, and either a result or an error. -/
structure Responds (line : String) (response : Value) : Prop where
  version : response.get "jsonrpc" = some (.string "2.0")
  id : response.get "id" = some (idOf parse line)
  one : (response.get "result").isSome = !(response.get "error").isSome

/-- The lines that are expected to be answered are answered one by one and in order, and no other
line is. -/
inductive Corresponds (expected : String → Prop) : List String → List Value → Prop where
  | nil : Corresponds expected [] []
  | answered {line : String} {lines : List String} {response : Value} {responses : List Value}
      (asked : expected line) (responds : Responds parse line response)
      (rest : Corresponds expected lines responses) :
      Corresponds expected (line :: lines) (response :: responses)
  | silent {line : String} {lines : List String} {responses : List Value}
      (asked : ¬ expected line) (rest : Corresponds expected lines responses) :
      Corresponds expected (line :: lines) responses

/-- A line with text that is not JSON or has an id. -/
def Answerable (line : String) : Prop :=
  Core.isBlank line = false ∧ ∀ value, parse line = .ok value → (value.get "id").isSome = true

variable {parse}
variable {line : String} {lines : List String} {responses : List Value} {state : σ}

theorem responds_response {id : Value} (found : idOf parse line = id)
    (result : Except RpcError Value) : Responds parse line (response id result) := by
  subst found
  cases result with
  | ok result => exact ⟨rfl, rfl, rfl⟩
  | error error => exact ⟨rfl, rfl, rfl⟩

/-- What is written for one line. -/
theorem handleLine_responds (state : σ) (text : Core.isBlank line = false) :
    (Answerable parse line ∧ ∃ response state', handleLine runtime parse line state =
      (some response, state') ∧ Responds parse line response) ∨
    (¬ Answerable parse line ∧ ∃ state', handleLine runtime parse line state = (none, state')) := by
  rw [handleLine]
  cases parsed : parse line with
  | error message =>
    refine .inl ⟨⟨text, fun value found => ?_⟩, _, _, rfl, ?_⟩
    · rw [parsed] at found
      cases found
    · have id : idOf parse line = .null := by rw [idOf, parsed]
      exact responds_response id (.error ⟨-32700, message⟩)
  | ok value =>
    dsimp only
    rw [handleValue]
    cases id : value.get "id" with
    | none =>
      refine .inr ⟨?_, _, rfl⟩
      intro answerable
      have present := answerable.2 value parsed
      rw [id] at present
      cases present
    | some id' =>
      refine .inl ⟨⟨text, fun value' found => ?_⟩, _, _, rfl, ?_⟩
      · rw [parsed] at found
        cases found
        rw [id]
        rfl
      · have same : idOf parse line = id' := by simp [idOf, parsed, id]
        exact responds_response same _

theorem serve_collects (lines : List String) (state : σ) (written : List Value) :
    ∃ state' responses, serve runtime collect parse (lines.map .ok) state written =
      (.ok (), state', written ++ responses) ∧
      Corresponds parse (Answerable parse) lines responses := by
  induction lines generalizing state written with
  | nil => exact ⟨state, [], by rw [List.append_nil]; rfl, .nil⟩
  | cons line lines ih =>
    rw [List.map_cons, serve]
    by_cases blank : Core.isBlank line = true
    · obtain ⟨state', responses, served, corresponds⟩ := ih state written
      refine ⟨state', responses, ?_, .silent ?_ corresponds⟩
      · rw [if_pos blank]
        exact served
      · intro answerable
        rw [answerable.1] at blank
        cases blank
    · rw [if_neg blank]
      obtain ⟨answerable, response, state₁, handled, responds⟩ | ⟨silent, state₁, handled⟩ :=
        handleLine_responds runtime state (Bool.eq_false_of_not_eq_true blank)
      · obtain ⟨state', responses, served, corresponds⟩ := ih state₁ (written ++ [response])
        refine ⟨state', response :: responses, ?_, .answered answerable responds corresponds⟩
        rw [handled]
        dsimp only [collect]
        rw [served, List.append_assoc]
        rfl
      · obtain ⟨state', responses, served, corresponds⟩ := ih state₁ written
        refine ⟨state', responses, ?_, .silent silent corresponds⟩
        rw [handled]
        exact served

/-- Each line that is not JSON or has an id gets one response with its id, and no other line gets
one. -/
theorem serve_responds (parse : String → Except String Value) (lines : List String) (state : σ) :
    ∃ state' responses, serve runtime collect parse (lines.map .ok) state [] =
      (.ok (), state', responses) ∧ Corresponds parse (Answerable parse) lines responses :=
  serve_collects runtime lines state []

end Answers

/-! ## A value that is no request -/

/-- The answers of a runtime without threads. -/
def emptyRuntime (state : Unit) : (op : RpcOp) → op.Answer × Unit
  | .startThread => (.ok ⟨"thread"⟩, state)
  | .events threadId => (.error (.unknownThread threadId), state)
  | .recover threadId => (.error (.unknownThread threadId), state)
  | .newTurn => ((⟨"turn"⟩, ⟨0⟩), state)
  | .insertTurn _ _ => (.ok (), state)
  | .getTurn _ => (.ok none, state)
  | .cancel _ => ((), state)
  | .spawnTurn .. => ((), state)

def parseText (text : String) : Except String Value :=
  match Json.parse text with
  | some value => .ok value
  | none => .error "expected value at line 1 column 1"

/-- A line with text that is no notification. -/
def Expected (parse : String → Except String Value) (line : String) : Prop :=
  Core.isBlank line = false ∧ ∀ value, parse line = .ok value → ¬ Notification value

/-- An empty array is no notification, and is not answered. -/
theorem array_unanswered :
    serve emptyRuntime collect parseText [.ok "[]"] () [] = (.ok (), (), []) ∧
    ¬ ∀ {σ : Type} (runtime : σ → (op : RpcOp) → op.Answer × σ)
      (parse : String → Except String Value) (lines : List String) (state : σ),
      ∃ state' responses, serve runtime collect parse (lines.map .ok) state [] =
        (.ok (), state', responses) ∧ Corresponds parse (Expected parse) lines responses := by
  have parsed : parseText "[]" = .ok (.array []) := by decide
  have served : serve emptyRuntime collect parseText [.ok "[]"] () [] = (.ok (), (), []) := by
    have handled : handleLine emptyRuntime parseText "[]" () = (none, ()) := by
      rw [handleLine, parsed]
      rfl
    rw [serve, if_neg (by decide), handled]
    rfl
  refine ⟨served, ?_⟩
  intro claimed
  obtain ⟨state, responses, served', corresponds⟩ := claimed emptyRuntime parseText ["[]"] ()
  rw [List.map_singleton, served] at served'
  cases served'
  cases corresponds with
  | silent asked rest =>
    apply asked
    refine ⟨by decide, ?_⟩
    intro value found
    rw [parsed] at found
    cases found
    rintro ⟨⟨members, object⟩, _⟩
    cases object

end Nausicaa.Server
