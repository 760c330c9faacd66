import Nausicaa.Core.Operation

/-! # Recovery of interrupted turns

`recovery.rs`: fold the log of a thread into maps, then append what closes the
interrupted calls and turns.  No side effect is replayed. -/

namespace Nausicaa.Core

open Std (TreeMap TreeSet)

structure RecoveryReport where
  receiptsRecorded : List ToolReceipt
  turnsMarkedFailed : List TurnId
  deriving DecidableEq

/-- The maps and sets that `recover_thread` folds out of the log. -/
structure RecoveryState where
  openTurns : TreeSet TurnId
  calls : TreeMap CallKey ToolCall
  prepared : TreeMap CallKey PreparedToolCall
  started : TreeMap CallKey PreparedToolCall
  completed : TreeSet CallKey

namespace RecoveryState

def empty : RecoveryState := ⟨∅, ∅, ∅, ∅, ∅⟩

/-- One event of turn `turnId`. -/
def observe (state : RecoveryState) (turnId : TurnId) : RuntimeEvent → RecoveryState
  | .turnStarted => { state with openTurns := state.openTurns.insert turnId }
  | .assistantMessage _ toolCalls _ _ =>
    { state with
      calls := toolCalls.foldl (fun calls call => calls.insert (turnId, call.id) call)
        state.calls }
  | .toolPrepared action =>
    { state with prepared := state.prepared.insert (turnId, action.callId) action }
  | .toolExecutionStarted action =>
    { state with started := state.started.insert (turnId, action.callId) action }
  | .toolReceiptRecorded receipt =>
    { state with completed := state.completed.insert (turnId, receipt.callId) }
  | .turnCompleted _ | .turnFailed _ | .turnCancelled =>
    { state with openTurns := state.openTurns.erase turnId }
  | _ => state

/-- One envelope; events outside a turn are skipped. -/
def step (state : RecoveryState) (envelope : EventEnvelope) : RecoveryState :=
  match envelope.turnId with
  | none => state
  | some turnId => state.observe turnId envelope.event

def scan (events : List EventEnvelope) : RecoveryState := events.foldl step empty

/-- The keys of the three maps, in order and without repetition. -/
def keys (state : RecoveryState) : TreeSet CallKey :=
  let keys : TreeSet CallKey := (∅ : TreeSet CallKey).insertMany state.calls.keys
  let keys := keys.insertMany state.prepared.keys
  keys.insertMany state.started.keys

/-- The receipt that closes a call, if one of the maps knows it. -/
def closingReceipt (state : RecoveryState) (key : CallKey) : Option ToolReceipt :=
  match state.started[key]? with
  | some action =>
    some (.unknown action "execution started but no durable receipt was found during recovery")
  | none =>
    match state.prepared[key]? with
    | some action => some (.failed action "turn was interrupted before execution began")
    | none =>
      match state.calls[key]? with
      | some call => some (.malformed call "turn was interrupted before tool preparation")
      | none => none

end RecoveryState

def interruptedTurn : String := "turn was interrupted and recovered without replaying actions"

/-- Append an event without notifying anyone, as recovery does. -/
def appendToStore (threadId : ThreadId) (turnId : TurnId) (event : RuntimeEvent) :
    Attempt StoreError EventEnvelope := do
  match ← perform (.storeAppend threadId (some turnId) event) with
  | .error error => throw error
  | .ok envelope => return envelope

/-- The loop over the keys: a receipt for every call that has none. -/
def closeCalls (state : RecoveryState) (threadId : ThreadId) :
    List CallKey → RecoveryReport → Attempt StoreError RecoveryReport
  | [], report => return report
  | key :: keys, report =>
    if state.completed.contains key then
      closeCalls state threadId keys report
    else
      match state.closingReceipt key with
      | none => closeCalls state threadId keys report
      | some receipt => do
        let _ ← appendToStore threadId key.1 (.toolReceiptRecorded receipt)
        closeCalls state threadId keys
          { report with receiptsRecorded := report.receiptsRecorded ++ [receipt] }

/-- The loop over the open turns: mark each of them failed. -/
def failTurns (threadId : ThreadId) :
    List TurnId → RecoveryReport → Attempt StoreError RecoveryReport
  | [], report => return report
  | turnId :: turns, report => do
    let _ ← appendToStore threadId turnId (.turnFailed interruptedTurn)
    failTurns threadId turns
      { report with turnsMarkedFailed := report.turnsMarkedFailed ++ [turnId] }

/-- Closes interrupted protocol edges without replaying side effects. -/
def recoverThread (threadId : ThreadId) : Attempt StoreError RecoveryReport := do
  match ← perform (.loadThread threadId) with
  | .error error => throw error
  | .ok events =>
    let state := RecoveryState.scan events
    let report ← closeCalls state threadId state.keys.toList ⟨[], []⟩
    failTurns threadId state.openTurns.toList report

end Nausicaa.Core
