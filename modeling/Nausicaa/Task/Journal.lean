import Nausicaa.Jsonl.Lines
import Nausicaa.Task.Acceptance

/-! # The task journal

One task in a file of JSON lines.  A change is written before it is published, and a failing
write closes the instance.  What serde_json reads and writes is a `Codec`; the failing of
writes is an input. -/

namespace Nausicaa.Task

abbrev Bytes := List UInt8

/-- `\n`. -/
def newline : UInt8 := 0x0A

structure Record where
  version : Nat
  sequence : Nat
  payload : TaskEvent
  deriving DecidableEq

/-- `serde_json::to_vec` and `serde_json::from_slice` for records. -/
structure Codec where
  encode : Record → Bytes
  decode : Bytes → Except String Record

/-- What serde_json documents about records with readable events: they are printed on one line,
and read back from it. -/
structure Codec.Faithful (codec : Codec) (readable : TaskEvent → Prop) : Prop where
  decodes : ∀ record : Record, readable record.payload →
    codec.decode (codec.encode record ++ [newline]) = .ok record
  oneLine : ∀ record : Record, readable record.payload → newline ∉ codec.encode record

/-- A step of an append fails after this many bytes of the record reached the file. -/
structure Fault where
  written : Nat
  message : String
  deriving DecidableEq

structure TaskJournal where
  file : Bytes
  state : TaskState
  sequence : Nat
  writeFailed : Bool
  deriving DecidableEq

namespace TaskJournal

/-- The line that is written for a record. -/
def line (codec : Codec) (record : Record) : Bytes := codec.encode record ++ [newline]

/-- The record of the next append. -/
def record (journal : TaskJournal) (payload : TaskEvent) : Record := ⟨1, journal.sequence, payload⟩

def append (journal : TaskJournal) (codec : Codec) (payload : TaskEvent) (fault : Option Fault) :
    Except TaskError Unit × TaskJournal :=
  if journal.writeFailed then
    (.error (.invalid "previous write failed; reopen journal"), journal)
  else
    let bytes := line codec (journal.record payload)
    match fault with
    | some fault =>
      (.error (.io fault.message),
        { journal with file := journal.file ++ bytes.take fault.written, writeFailed := true })
    | none =>
      (.ok (), { journal with
        file := journal.file ++ bytes
        writeFailed := false
        sequence := journal.sequence + 1 })

/-- The journal, and the file that is left, if one was made. -/
def create (codec : Codec) (spec : TaskSpec) (fault : Option Fault) :
    Except TaskError TaskJournal × Option Bytes :=
  match initialState spec with
  | .error error => (.error error, none)
  | .ok state =>
    let journal : TaskJournal := ⟨[], state, 0, false⟩
    match journal.append codec (.created spec) fault with
    | (.error error, journal) => (.error error, some journal.file)
    | (.ok (), journal) => (.ok journal, some journal.file)

/-- The variables of the loop in `open`. -/
structure Opening where
  state : Option TaskState
  sequence : Nat

namespace Opening

def start : Opening := ⟨none, 0⟩

/-- One turn of the loop in `open`. -/
def line (opening : Opening) (debug : String → String) (codec : Codec) (line : Bytes) :
    Except TaskError Opening :=
  match codec.decode line with
  | .error message => .error (.json message)
  | .ok record =>
    if record.version ≠ 1 ∨ record.sequence ≠ opening.sequence then
      .error (.invalid "unsupported version or out-of-order sequence")
    else
      match opening.state, record.payload with
      | none, .created spec =>
        match initialState spec with
        | .error error => .error error
        | .ok state => .ok ⟨some state, opening.sequence + 1⟩
      | some current, event =>
        match current.apply debug event with
        | (.error error, _) => .error error
        | (.ok (), state) => .ok ⟨some state, opening.sequence + 1⟩
      | none, _ => .error (.invalid "journal must begin with task creation")

def lines (opening : Opening) (debug : String → String) (codec : Codec) :
    List Bytes → Except TaskError Opening
  | [] => .ok opening
  | line :: rest =>
    match opening.line debug codec line with
    | .error error => .error error
    | .ok opening => opening.lines debug codec rest

end Opening

/-- `TaskJournal::open`, when no I/O operation fails. -/
def openFile (debug : String → String) (codec : Codec) (bytes : Bytes) :
    Except TaskError TaskJournal :=
  if bytes.getLast? ≠ some newline then
    .error (.invalid "empty or unterminated journal; inspect before recovery")
  else
    match Opening.start.lines debug codec (Jsonl.lines newline bytes) with
    | .error error => .error error
    | .ok ⟨none, _⟩ => .error (.invalid "missing task creation")
    | .ok ⟨some state, sequence⟩ => .ok ⟨bytes, state, sequence, false⟩

def transition (journal : TaskJournal) (debug : String → String) (codec : Codec)
    (event : TaskEvent) (fault : Option Fault) : Except TaskError Unit × TaskJournal :=
  match journal.state.apply debug event with
  | (.error error, _) => (.error error, journal)
  | (.ok (), next) =>
    match journal.append codec event fault with
    | (.error error, journal) => (.error error, journal)
    | (.ok (), journal) => (.ok (), { journal with state := next })

/-! ## What a transition does -/

section Transition

variable {debug : String → String} {codec : Codec} {journal journal' : TaskJournal}
variable {event : TaskEvent} {fault : Option Fault} {error : TaskError}

theorem apply_error {state state' : TaskState}
    (refused : state.apply debug event = (.error error, state')) :
    ∃ message, error = .invalid message := by
  cases event with
  | created spec =>
    cases refused
    exact ⟨_, rfl⟩
  | attemptStarted turnId =>
    rw [TaskState.apply, TaskState.attemptStarted] at refused
    split at refused
    · cases refused
      exact ⟨_, rfl⟩
    · cases refused
  | attemptChecked artifacts receipts =>
    rw [TaskState.apply, TaskState.attemptChecked] at refused
    split at refused
    · cases refused
      exact ⟨_, rfl⟩
    · dsimp only at refused
      split at refused
      · cases refused
        exact ⟨_, rfl⟩
      · cases refused
  | blocked reason =>
    rw [TaskState.apply, TaskState.blockedBy] at refused
    split at refused
    · cases refused
      exact ⟨_, rfl⟩
    · cases refused

theorem transition_ok
    (done : journal.transition debug codec event fault = (.ok (), journal')) :
    ∃ next, journal.state.apply debug event = (.ok (), next) ∧ journal.writeFailed = false ∧
      journal' = ⟨journal.file ++ line codec (journal.record event), next,
        journal.sequence + 1, false⟩ := by
  rw [transition] at done
  split at done
  next error _ refused => cases done
  next next applied =>
    rw [append] at done
    by_cases failed : journal.writeFailed = true
    · rw [if_pos failed] at done
      cases done
    · rw [if_neg failed] at done
      cases fault with
      | some fault => cases done
      | none =>
        cases done
        exact ⟨next, applied, Bool.eq_false_iff.mpr failed, rfl⟩

/-- A transition is rejected and changes nothing, or its write fails. -/
theorem transition_error
    (refused : journal.transition debug codec event fault = (.error error, journal')) :
    (journal' = journal ∧ ∃ message, error = .invalid message) ∨
      ∃ fault' next, fault = some fault' ∧ error = .io fault'.message ∧
        journal.state.apply debug event = (.ok (), next) ∧ journal.writeFailed = false ∧
        journal' = { journal with
          file := journal.file ++ (line codec (journal.record event)).take fault'.written
          writeFailed := true } := by
  rw [transition] at refused
  split at refused
  next error' _ rejected =>
    cases refused
    exact .inl ⟨rfl, apply_error rejected⟩
  next next applied =>
    rw [append] at refused
    by_cases failed : journal.writeFailed = true
    · rw [if_pos failed] at refused
      cases refused
      exact .inl ⟨rfl, _, rfl⟩
    · rw [if_neg failed] at refused
      cases fault with
      | none => cases refused
      | some fault =>
        cases refused
        exact .inr ⟨fault, next, rfl, rfl, applied, Bool.eq_false_iff.mpr failed, rfl⟩

/-- An instance whose write failed does nothing any more. -/
theorem transition_failed (failed : journal.writeFailed = true) (event : TaskEvent)
    (fault : Option Fault) :
    ∃ message, journal.transition debug codec event fault = (.error (.invalid message), journal) := by
  rw [transition]
  cases applied : journal.state.apply debug event with
  | mk reply next =>
    cases reply with
    | error error =>
      obtain ⟨message, rfl⟩ := apply_error applied
      exact ⟨message, rfl⟩
    | ok _ =>
      rw [append, if_pos failed]
      exact ⟨_, rfl⟩

end Transition

end TaskJournal

/-! ## Operations -/

inductive Operation where
  | startAttempt (turnId : String)
  | verify (artifacts : List ArtifactRef) (receipts : List Core.ToolReceipt)
  | block (reason : String)
  deriving DecidableEq

def Operation.event : Operation → TaskEvent
  | .startAttempt turnId => .attemptStarted turnId
  | .verify artifacts receipts => .attemptChecked artifacts receipts
  | .block reason => .blocked reason

/-- The call of a method of the journal. -/
structure Call where
  before : TaskJournal
  operation : Operation
  fault : Option Fault
  reply : Except TaskError Unit
  after : TaskJournal

/-- The calls on an instance, the last one first.  Any write may fail. -/
inductive Calls (debug : String → String) (codec : Codec) (start : TaskJournal) :
    List Call → TaskJournal → Prop where
  | start : Calls debug codec start [] start
  | call {calls : List Call} {journal journal' : TaskJournal} {operation : Operation}
      {fault : Option Fault} {reply : Except TaskError Unit} :
    Calls debug codec start calls journal →
    journal.transition debug codec operation.event fault = (reply, journal') →
    Calls debug codec start (⟨journal, operation, fault, reply, journal'⟩ :: calls) journal'

/-- The instances that a host gets. -/
inductive Begun (debug : String → String) (codec : Codec) : TaskJournal → Prop where
  | create {spec : TaskSpec} {journal : TaskJournal} :
    TaskJournal.create codec spec none = (.ok journal, some journal.file) →
    Begun debug codec journal
  | openFile {bytes : Bytes} {journal : TaskJournal} :
    TaskJournal.openFile debug codec bytes = .ok journal → Begun debug codec journal

end Nausicaa.Task
