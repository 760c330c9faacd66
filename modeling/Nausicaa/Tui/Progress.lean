import Nausicaa.Core.Protocol
import Nausicaa.Text.Tail

/-! # Progress of the model

`ModelProgressBuffer` of `tui/src/progress.rs`: the text that the model streams, coalesced until the
terminal takes it. -/

namespace Nausicaa.Tui

open Core (ThreadId TurnId)
open Text (lastFitting_getLast? truncate truncate_tail width)

structure RequestTimings where
  dnsMs : Option Nat
  tcpConnectMs : Option Nat
  tlsMs : Option Nat
  firstByteMs : Option Nat
  firstTextMs : Option Nat
  totalMs : Nat

inductive ModelProgress where
  | started
  | textDelta (text : String)
  | finished (timings : RequestTimings) (outcome : String)

structure ModelProgressEvent where
  threadId : ThreadId
  turnId : TurnId
  iteration : Nat
  progress : ModelProgress

/-- What is shared between the observer and the terminal. -/
structure Snapshot where
  draft : Option ModelProgressEvent
  completed : List ModelProgressEvent
  error : Option String

def Snapshot.empty : Snapshot := ⟨none, [], none⟩

/-- The bytes of a draft that are kept. -/
def draftLimit : Nat := 65536

theorem width_le (char : Char) : width char ≤ draftLimit := by
  have short := char.utf8Size_le_four
  rw [width, String.length_utf8EncodeChar, draftLimit]
  omega

def appendBounded (previous text : String) : String := truncate draftLimit (previous ++ text)

/-- The end of a text that is appended fits. -/
theorem appendBounded_ne_empty (previous : String) {text : String} (filled : text ≠ "") :
    appendBounded previous text ≠ "" := by
  intro empty
  have last := congrArg String.toList empty
  rw [appendBounded, truncate_tail] at last
  have none := lastFitting_getLast? width_le (previous ++ text).toList
  rw [last, String.toList_append, String.toList_empty, List.getLast?_nil, eq_comm,
    List.getLast?_eq_none_iff, List.append_eq_nil_iff] at none
  exact filled (String.toList_eq_nil_iff.mp none.2)

/-- The two events belong to one request. -/
def ModelProgressEvent.SameRequest (old event : ModelProgressEvent) : Prop :=
  old.turnId = event.turnId ∧ old.iteration = event.iteration ∧ old.threadId = event.threadId

instance (old event : ModelProgressEvent) : Decidable (old.SameRequest event) := by
  unfold ModelProgressEvent.SameRequest
  infer_instance

/-- The text that is buffered for the request of an event. -/
def Snapshot.buffered (snapshot : Snapshot) (event : ModelProgressEvent) : Option String :=
  match snapshot.draft with
  | some old =>
    match old.progress with
    | .textDelta previous => if old.SameRequest event then some previous else none
    | _ => none
  | none => none

/-- `on_progress`; `failure` says that the metrics file could not be written. -/
def Snapshot.onProgress (snapshot : Snapshot) (event : ModelProgressEvent)
    (failure : Option String) : Snapshot :=
  match event.progress with
  | .started => { snapshot with draft := some event }
  | .textDelta text =>
    let text := match snapshot.buffered event with
      | some previous => appendBounded previous text
      | none => truncate draftLimit text
    { snapshot with draft := some { event with progress := .textDelta text } }
  | .finished _ _ =>
    let completed := snapshot.completed ++ [event]
    { snapshot with
      completed := completed.drop (completed.length - 16)
      error := (failure.map fun error => s!"request metrics write failed: {error}").or snapshot.error }

end Nausicaa.Tui
