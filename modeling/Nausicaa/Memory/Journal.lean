import Nausicaa.Memory.Store
import Nausicaa.TaskLedger.Reopening

/-! # The journal of the memory store

`JsonlMemoryStore` of the memory crate: its file of JSON lines, and the records that are replayed from
it.  What serde_json reads and writes is a `Codec`.  Opening the file behind an append gives the
records of the append (`append_reopens`). -/

namespace Nausicaa.Memory

open Std (ExtTreeMap)
open TaskLedger (Bytes encode_newline isBlank_object newline stripLineEnd stripLineEnd_newline)

inductive MemoryEvent where
  | upsert (record : MemoryRecord)
  | forget (id : String)

structure MemoryEnvelope where
  sequence : Nat
  atUnixMs : Nat
  event : MemoryEvent

/-- `serde_json::to_vec` and `serde_json::from_str` for envelopes. -/
structure Codec where
  encode : MemoryEnvelope → String
  decode : String → Except String MemoryEnvelope

abbrev Records := ExtTreeMap String MemoryRecord

def applyEvent (records : Records) : MemoryEvent → Records
  | .upsert record => records.insert record.id record
  | .forget id => records.erase id

structure JsonlState where
  file : Bytes
  nextSequence : Nat
  records : Records

/-! ## Opening -/

/-- One line as `BufRead::lines` gives it. -/
def readLine (line : Bytes) : Except MemoryError String :=
  match Text.decode line with
  | some text => .ok (stripLineEnd text)
  | none => .error (.io "stream did not contain valid UTF-8")

/-- The variables of the loop in `open`. -/
structure Replay where
  records : Records
  nextSequence : Nat

def Replay.start : Replay := ⟨∅, 0⟩

/-- One turn of the loop in `open`. -/
def Replay.line (replay : Replay) (codec : Codec) (index : Nat) (line : Bytes) :
    Except MemoryError Replay :=
  match readLine line with
  | .error error => .error error
  | .ok text =>
    if Core.isBlank text then .ok replay
    else
      match codec.decode text with
      | .error message => .error (.corrupt (index + 1) message)
      | .ok envelope =>
        .ok ⟨applyEvent replay.records envelope.event,
          max replay.nextSequence (envelope.sequence + 1)⟩

def Replay.lines (replay : Replay) (codec : Codec) (index : Nat) :
    List Bytes → Except MemoryError Replay
  | [] => .ok replay
  | line :: rest =>
    match replay.line codec index line with
    | .error error => .error error
    | .ok replay => replay.lines codec (index + 1) rest

/-- `JsonlMemoryStore::open` of a file with these bytes. -/
def openFile (codec : Codec) (file : Bytes) : Except MemoryError JsonlState :=
  match Replay.start.lines codec 0 (Jsonl.lines newline file) with
  | .error error => .error error
  | .ok replay => .ok ⟨file, replay.nextSequence, replay.records⟩

/-! ## Appending -/

namespace JsonlState

/-- The line that is written for an envelope. -/
def record (codec : Codec) (envelope : MemoryEnvelope) : Bytes :=
  Text.encode (codec.encode envelope) ++ [newline]

/-- `append` at this time, where no write fails. -/
def append (codec : Codec) (state : JsonlState) (event : MemoryEvent) (atUnixMs : Nat) :
    JsonlState where
  file := state.file ++ record codec ⟨state.nextSequence, atUnixMs, event⟩
  nextSequence := state.nextSequence + 1
  records := applyEvent state.records event

end JsonlState

/-! ## Reading back -/

/-- What serde_json documents about envelopes: they are printed on one line as an object, and read
back. -/
structure Codec.Faithful (codec : Codec) : Prop where
  decodes : ∀ envelope, codec.decode (codec.encode envelope) = .ok envelope
  oneLine : ∀ envelope, '\n' ∉ (codec.encode envelope).toList
  object : ∀ envelope, (codec.encode envelope).toList.head? = some '\x7b' ∧
    (codec.encode envelope).toList.getLast? = some '\x7d'

section Reading

variable {codec : Codec} {envelope : MemoryEnvelope} {replay replay' : Replay} {state : JsonlState}

theorem readLine_record (faithful : codec.Faithful) :
    readLine (JsonlState.record codec envelope) = .ok (codec.encode envelope) := by
  have decoded : Text.decode (JsonlState.record codec envelope) =
      some (codec.encode envelope ++ "\n") := by
    rw [JsonlState.record, ← encode_newline, ← Text.encode_append, Text.decode_encode]
  rw [readLine, decoded]
  simp only [stripLineEnd_newline (faithful.object envelope).2 (by decide)]

theorem record_line (faithful : codec.Faithful) :
    Jsonl.lines newline (JsonlState.record codec envelope) =
      [JsonlState.record codec envelope] := by
  have clean : newline ∉ Text.encode (codec.encode envelope) := by
    intro member
    have member : UInt8.ofNat '\n'.toNat ∈ Text.encode (codec.encode envelope) := member
    exact faithful.oneLine envelope (Text.mem_encode (by decide) member)
  have shown := Jsonl.lines_body clean []
  rwa [Jsonl.lines] at shown

theorem Replay.line_record (faithful : codec.Faithful) (index : Nat) :
    replay.line codec index (JsonlState.record codec envelope) =
      .ok ⟨applyEvent replay.records envelope.event,
        max replay.nextSequence (envelope.sequence + 1)⟩ := by
  have visible := isBlank_object (faithful.object envelope).1 (by decide)
  rw [Replay.line, readLine_record faithful]
  simp only [visible, Bool.false_eq_true, if_false, faithful.decodes envelope]

theorem Replay.lines_append {before after : List Bytes} {index : Nat}
    (read : replay.lines codec index before = .ok replay') :
    replay.lines codec index (before ++ after) =
      replay'.lines codec (index + before.length) after := by
  induction before generalizing replay index with
  | nil =>
    cases read
    rfl
  | cons line before ih =>
    rw [Replay.lines] at read
    rw [List.cons_append, Replay.lines]
    cases one : replay.line codec index line with
    | error error =>
      rw [one] at read
      cases read
    | ok next =>
      rw [one] at read
      have rest := ih read
      rw [Nat.add_right_comm] at rest
      exact rest

/-- The state is what its file gives. -/
theorem openFile_eq : openFile codec state.file = .ok state ↔
    Replay.start.lines codec 0 (Jsonl.lines newline state.file) =
      .ok ⟨state.records, state.nextSequence⟩ := by
  rw [openFile]
  cases Replay.start.lines codec 0 (Jsonl.lines newline state.file) with
  | error error => simp
  | ok replay =>
    obtain ⟨records, nextSequence⟩ := replay
    obtain ⟨file, nextSequence', records'⟩ := state
    simp [and_comm]

theorem openFile_file {file : Bytes} (opened : openFile codec file = .ok state) :
    state.file = file := by
  rw [openFile] at opened
  split at opened
  next => cases opened
  next =>
    cases opened
    rfl

/-- Behind an ended file, an append and the replay of its line do the same. -/
theorem append_reopens (faithful : codec.Faithful) (ended : Jsonl.Ended newline state.file)
    (opened : openFile codec state.file = .ok state) (event : MemoryEvent) (atUnixMs : Nat) :
    openFile codec (state.append codec event atUnixMs).file =
      .ok (state.append codec event atUnixMs) := by
  rw [openFile_eq] at opened ⊢
  rw [JsonlState.append]
  dsimp only
  rw [Jsonl.lines_append ended, record_line faithful, Replay.lines_append opened, Replay.lines,
    Replay.line_record faithful]
  simp [Replay.lines]

end Reading

end Nausicaa.Memory
