import Mathlib.Data.List.DropRight
import Mathlib.Data.List.Sort
import Nausicaa.Core.Operation
import Nausicaa.Jsonl.Lines

/-! # The JSONL event store

`JsonlEventStore` of `store.rs`: opening a file of JSON lines, appending to it and
loading a thread.  The file and its archives are the state of a `Disk`; how an append
fails is given by a `Fault`, which says how many bytes of the record reached the file.
What serde_json reads and writes is a `Codec`. -/

namespace Nausicaa.Store

open Nausicaa.Core

abbrev Bytes := List UInt8

/-- `\n`. -/
def newline : UInt8 := 0x0A

/-- `u8::is_ascii_whitespace`. -/
def isAsciiWhitespace (byte : UInt8) : Bool :=
  byte == 0x20 || byte == 0x09 || byte == 0x0A || byte == 0x0C || byte == 0x0D

/-- A `serde_json::Error`: whether the input ended too early, and its text. -/
structure DecodeError where
  isEof : Bool
  message : String
  deriving DecidableEq, Repr

/-- `serde_json::to_vec` and `serde_json::from_slice` for event envelopes. -/
structure Codec where
  encode : EventEnvelope → Bytes
  decode : Bytes → Except DecodeError EventEnvelope

/-- The log and the torn tails archived beside it. -/
structure Disk where
  file : Bytes
  archives : List Bytes
  deriving DecidableEq

/-- What a store holds; an archive is known by its place among the archives. -/
structure JsonlEventStore where
  recoveredTail : Option Nat
  nextSequence : Nat
  events : List EventEnvelope
  writeFailed : Bool

namespace JsonlEventStore

/-! ## Opening -/

/-- The variables of the loop in `open`. -/
structure Reading where
  events : List EventEnvelope
  lineNumber : Nat
  validBytes : Nat
  tornTail : Option Bytes
  needsNewline : Bool

def Reading.start : Reading := ⟨[], 0, 0, none, false⟩

/-- A line that counts as read. -/
def Reading.accept (reading : Reading) (line : Bytes) (events : List EventEnvelope) : Reading where
  events := reading.events ++ events
  lineNumber := reading.lineNumber + 1
  validBytes := reading.validBytes + line.length
  tornTail := reading.tornTail
  needsNewline := line.getLast? ≠ some newline

/-- The loop over the lines of the file. -/
def readLines (codec : Codec) : List Bytes → Reading → Except StoreError Reading
  | [], reading => .ok reading
  | line :: rest, reading =>
    if line.all isAsciiWhitespace then
      readLines codec rest (reading.accept line [])
    else
      match codec.decode line with
      | .ok event => readLines codec rest (reading.accept line [event])
      | .error error =>
        if line.getLast? ≠ some newline ∧ error.isEof then
          .ok { reading with lineNumber := reading.lineNumber + 1, tornTail := some line }
        else
          .error (.corrupt (reading.lineNumber + 1) error.message)

/-- The store over the events of a reading, in the order of their sequence numbers. -/
def ofEvents (recoveredTail : Option Nat) (events : List EventEnvelope) : JsonlEventStore where
  recoveredTail := recoveredTail
  nextSequence := ((events.map EventEnvelope.sequence).max?.map (· + 1)).getD 0
  events := events.insertionSort fun event event' => event.sequence ≤ event'.sequence
  writeFailed := false

/-- `open`, when no I/O operation fails. -/
def openFile (codec : Codec) (disk : Disk) : Except StoreError JsonlEventStore × Disk :=
  match readLines codec (Jsonl.lines newline disk.file) Reading.start with
  | .error error => (.error error, disk)
  | .ok reading =>
    match reading.tornTail with
    | some bytes =>
      -- The tail is archived before the log is cut.
      (.ok (ofEvents (some disk.archives.length) reading.events),
        ⟨disk.file.take reading.validBytes, disk.archives ++ [bytes]⟩)
    | none =>
      (.ok (ofEvents none reading.events),
        if reading.needsNewline then { disk with file := disk.file ++ [newline] } else disk)

/-! ## Appending and loading -/

/-- An append: the id and time of the new envelope, and what it records. -/
structure Append where
  id : EventId
  atUnixMs : Nat
  threadId : ThreadId
  turnId : Option TurnId
  event : RuntimeEvent

/-- `make_envelope`. -/
def Append.envelope (entry : Append) (sequence : Nat) : EventEnvelope :=
  ⟨entry.id, sequence, entry.atUnixMs, entry.threadId, entry.turnId, entry.event⟩

/-- A step of an append fails after this many bytes of the record reached the file. -/
structure Fault where
  written : Nat
  message : String

/-- `append`; without a fault every step succeeds. -/
def append (store : JsonlEventStore) (codec : Codec) (disk : Disk) (entry : Append)
    (fault : Option Fault) : Except StoreError EventEnvelope × JsonlEventStore × Disk :=
  if store.writeFailed then
    (.error (.io "a previous append failed; reopen the event store before writing"), store, disk)
  else
    let envelope := entry.envelope store.nextSequence
    let record := codec.encode envelope ++ [newline]
    match fault with
    | some fault =>
      (.error (.io fault.message), { store with writeFailed := true },
        { disk with file := disk.file ++ record.take fault.written })
    | none =>
      (.ok envelope,
        { store with
          nextSequence := store.nextSequence + 1
          events := store.events ++ [envelope] },
        { disk with file := disk.file ++ record })

def loadThread (store : JsonlEventStore) (threadId : ThreadId) : List EventEnvelope :=
  store.events.filter fun event => event.threadId = threadId

end JsonlEventStore

/-! ## A sample -/

namespace Sample

/-- A thread's first event, but for its sequence number. -/
def started : JsonlEventStore.Append :=
  ⟨⟨"event_1"⟩, 1700000000000, ⟨"thread_1"⟩, none, .threadStarted⟩

def startedText (sequence : Nat) : Bytes :=
  ("\x7b\"id\":\"event_1\",\"sequence\":" ++ toString sequence ++
    ",\"at_unix_ms\":1700000000000,\"thread_id\":\"thread_1\"," ++
    "\"event\":\x7b\"type\":\"thread_started\"\x7d\x7d").toUTF8.data.toList

/-- What serde_json does with `started` under the first three sequence numbers. -/
def startedCodec : Codec where
  encode event := startedText event.sequence
  decode bytes :=
    match [0, 1, 2].find? fun sequence =>
      bytes.rdropWhile (· == newline) = startedText sequence with
    | some sequence => .ok (started.envelope sequence)
    | none => .error
      ⟨[0, 1, 2].any fun sequence => bytes.isPrefixOf (startedText sequence), "not an envelope"⟩

end Sample

end Nausicaa.Store
