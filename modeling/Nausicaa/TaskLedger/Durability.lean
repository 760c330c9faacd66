import Nausicaa.TaskLedger.Runs
import Nausicaa.TaskLedger.Torn

/-! # Appends that fail

`append_locked` goes on after an append that failed.  If a part of its record reached the
file, the next record is appended to that part and the file cannot be opened again
(`InstanceRuns.corrupted`).  As long as no record is appended to such a part, nor after
another record about its task that was not acknowledged, everything acknowledged is found
when the file is opened (`InstanceRuns.acknowledgedDurable`). -/

namespace Nausicaa.TaskLedger

/-- The events of a call that reached the file whole although their append failed. -/
def stray (codec : Codec) (state : LedgerState) : List LedgerEvent → (Nat → Host) → List LedgerEvent
  | [], _ => []
  | event :: events, hosts =>
    match (hosts 0).fault with
    | some fault =>
      let record := LedgerState.record codec (state.envelope event (hosts 0))
      if record.length ≤ fault.written then [event] else []
    | none =>
      stray codec { state with nextSequence := state.nextSequence + 1 } events
        fun index => hosts (index + 1)

theorem mem_of_stray {codec : Codec} {state : LedgerState} {events : List LedgerEvent}
    {hosts : Nat → Host} {event : LedgerEvent} (member : event ∈ stray codec state events hosts) :
    event ∈ events := by
  induction events generalizing state hosts with
  | nil => cases member
  | cons first events ih =>
    rw [stray] at member
    split at member
    · dsimp only at member
      split at member
      · rw [List.mem_singleton.mp member]
        exact List.mem_cons_self
      · cases member
    · exact List.mem_cons_of_mem _ (ih member)

/-- The tasks in a reply. -/
def Reply.records : Reply → List TaskRecord
  | .submission made => [made.task]
  | .claim kept | .found kept => kept.toList
  | .task kept => [kept]
  | .recovered tasks | .listed tasks => tasks

/-- Whether the call's last append returned `Ok`; nothing if it made none. -/
def Entry.appended (entry : Entry) : Option Bool :=
  match entry.reply with
  | .error (.io _) => some false
  | _ => if entry.after.nextSequence = entry.before.nextSequence then none else some true

/-! ## Replies and records -/

section Records

variable {codec : Codec} {hosts : Nat → Host} {state state' : LedgerState} {request : Request}
variable {reply : Except LedgerError Reply}

/-- The tasks in a reply are in the ledger. -/
theorem Performed.records (performed : Performed codec hosts state request reply state')
    (keyed : Keyed state.tasks) {answer : Reply} (accepted : reply = .ok answer)
    {task : TaskRecord} (member : task ∈ answer.records) :
    state'.tasks[task.id]? = some task := by
  cases performed with
  | quiet quiet =>
    cases quiet with
    | refused error => cases accepted
    | @existing _ _ _ _ _ task' known present =>
      cases accepted
      have same : task = task' := List.mem_singleton.mp member
      rw [same, keyed _ _ present]
      exact present
    | noneWaiting =>
      cases accepted
      cases member
    | @get taskId =>
      cases accepted
      have found : state.tasks[taskId]? = some task := Option.mem_toList.mp member
      rw [keyed _ _ found]
      exact found
    | list =>
      cases accepted
      have listed : task ∈ LedgerState.values state.tasks := member
      exact (mem_values keyed).mp listed
  | @appended _ event task' _ due done left =>
    cases accepted
    have same : task = task' := by
      cases event with
      | submitted new =>
        obtain ⟨inserted, left', same | ⟨old, _, same⟩⟩ := done.left
        · cases same
          cases left.symm.trans left'
          exact List.mem_singleton.mp member
        · cases left.symm.trans left'
          exact (List.mem_singleton.mp member).trans same.symm
      | _ => exact List.mem_singleton.mp member
    subst same
    rw [done.keyed keyed _ _ left]
    exact left
  | faulted due failed => cases accepted
  | recovered marks distinct replied =>
    obtain ⟨_, tasks, rfl, there⟩ | ⟨error, _, rfl⟩ := replied
    · cases accepted
      exact there task member
    · cases accepted

end Records

/-! ## What a failing write leaves -/

section Files

variable {codec : Codec} {readable : Json.Value → Prop} {envelope : LedgerEnvelope}

/-- A part of a record does not end in a newline. -/
theorem not_ended_part (faithful : codec.Faithful readable)
    (reads : envelope.event.Readable readable) (file : Bytes) {written : Nat}
    (some : 0 < written) (part : written < (LedgerState.record codec envelope).length) :
    ¬ Jsonl.Ended newline (file ++ (LedgerState.record codec envelope).take written) :=
  Jsonl.not_ended_part (newline_not_mem faithful reads) file some part

end Files

/-! ## Runs of one instance -/

/-- The events of the request are appended behind a newline, and are about other tasks than
the stray records of the file. -/
def Separated (strays : List LedgerEvent) (state : LedgerState) (request : Request) : Prop :=
  ∀ event ∈ request.events state,
    Jsonl.Ended newline state.file ∧ ∀ other ∈ strays, other.taskId ≠ event.taskId

instance (strays : List LedgerEvent) (state : LedgerState) (request : Request) :
    Decidable (Separated strays state request) :=
  inferInstanceAs (Decidable (∀ event ∈ request.events state,
    Jsonl.Ended newline state.file ∧ ∀ other ∈ strays, other.taskId ≠ event.taskId))

/-- The calls on an instance, the last one first, with the stray records they left.  Any
append may fail. -/
inductive InstanceRuns (codec : Codec) (readable : Json.Value → Prop) (start : LedgerState) :
    List Entry → List LedgerEvent → LedgerState → Prop where
  | start : InstanceRuns codec readable start [] [] start
  | call {history : List Entry} {strays : List LedgerEvent} {state state' : LedgerState}
      {request : Request} {hosts : Nat → Host} {reply : Except LedgerError Reply} :
    InstanceRuns codec readable start history strays state →
    state.perform codec request hosts = (reply, state') →
    Separated strays state request → request.Readable readable →
    (∀ id ∈ request.newId, start.tasks[id]? = none ∧
      ∀ entry ∈ history, entry.request.newId ≠ some id) →
    InstanceRuns codec readable start (⟨state, request, reply, state'⟩ :: history)
      (stray codec state (request.events state) hosts ++ strays) state'

/-- What the file gives: the tasks, some of them with a stray event on top. -/
structure Recorded (codec : Codec) (strays : List LedgerEvent) (state : LedgerState) : Prop where
  ended : Jsonl.Ended newline state.file
  replay : ∃ replay : Replay,
    Replay.start.lines codec 0 (Jsonl.lines newline state.file) = .ok replay ∧
    (∀ id : TaskId, (∀ other ∈ strays, other.taskId ≠ id) →
      replay.tasks[id]? = state.tasks[id]?) ∧
    ∀ (id : TaskId) (task : TaskRecord), state.tasks[id]? = some task →
      ∃ task', replay.tasks[id]? = some task' ∧ (task' = task ∨ TaskRecord.Step task task')

section Instance

variable {codec : Codec} {readable : Json.Value → Prop} {state state' : LedgerState}
variable {strays : List LedgerEvent} {request : Request} {event : LedgerEvent} {host : Host}
variable {error : LedgerError}

/-- Two maps that agree on the task of an event agree on what it makes of the task. -/
theorem applyEvent_congr {tasks replayed tasks' : Tasks} {eventTime : Nat}
    (agree : replayed[event.taskId]? = tasks[event.taskId]?)
    (applied : applyEvent tasks event eventTime = .ok tasks') :
    ∃ task, tasks' = tasks.insert event.taskId task ∧
      applyEvent replayed event eventTime = .ok (replayed.insert event.taskId task) ∧
      ∀ old, tasks[event.taskId]? = some old → task = event.change eventTime old := by
  cases present : tasks[event.taskId]? with
  | some old =>
    rw [applyEvent_found present] at applied
    refine ⟨_, (Except.ok.inj applied).symm, applyEvent_found (agree.trans present), ?_⟩
    intro old' same
    cases same
    rfl
  | none =>
    obtain ⟨task, same, rfl | ⟨old, found, _⟩⟩ := applyEvent_ok applied
    · exact ⟨task, same, rfl, by intro old none; cases none⟩
    · cases present.symm.trans found

theorem Recorded.appended (recorded : Recorded codec strays state)
    (faithful : codec.Faithful readable) (reads : event.Readable readable)
    (apart : ∀ other ∈ strays, other.taskId ≠ event.taskId)
    (done : LedgerState.Appended codec state event host state') :
    Recorded codec strays state' := by
  obtain ⟨ended, ⟨replayed, nextSequence⟩, read, agree, behind⟩ := recorded
  obtain ⟨task, tasks, applied, _⟩ := applyEvent_congr (agree _ apart) done.tasks
  have reads : (state.envelope event host).event.Readable readable := reads
  have read' := read_record faithful reads ended read applied
  refine ⟨?_, ⟨replayed.insert event.taskId task,
    max nextSequence ((state.envelope event host).sequence + 1)⟩, ?_, ?_, ?_⟩
  · rw [done.file]
    exact record_ended _ _
  · rw [done.file]
    exact read'
  · intro id others
    rw [tasks, getElem?_insert, getElem?_insert, agree id others]
  · intro id task' found
    rw [tasks, getElem?_insert] at found
    simp only [getElem?_insert]
    by_cases own : event.taskId = id
    · rw [if_pos own] at found ⊢
      cases found
      exact ⟨task, rfl, .inl rfl⟩
    · rw [if_neg own] at found ⊢
      exact behind id task' found

/-- What a failing write leaves when a part of the record was written, and when all of it was. -/
theorem Recorded.faulted (recorded : Recorded codec strays state)
    (faithful : codec.Faithful readable) (reads : event.Readable readable)
    (apart : ∀ other ∈ strays, other.taskId ≠ event.taskId) (due : Due state request event)
    (fresh : ∀ id ∈ request.newId, state.tasks[id]? = none) (host : Host) (written : Nat) :
    let record := LedgerState.record codec (state.envelope event host)
    let left := { state with file := state.file ++ record.take written }
    (written < record.length → Recorded codec strays left ∨ ¬ Jsonl.Ended newline left.file) ∧
    (record.length ≤ written → Recorded codec (event :: strays) left) := by
  have reads : (state.envelope event host).event.Readable readable := reads
  intro record left
  constructor
  · intro part
    by_cases none : written = 0
    · have same : left = state := by simp [left, none]
      rw [same]
      exact .inl recorded
    · exact .inr (not_ended_part faithful reads _ (Nat.pos_of_ne_zero none) part)
  · intro whole
    have file : left.file = state.file ++ record :=
      congrArg (state.file ++ ·) (List.take_of_length_le whole)
    obtain ⟨ended, ⟨replayed, nextSequence⟩, read, agree, behind⟩ := recorded
    obtain ⟨tasks', applies⟩ := due.applies host.now
    obtain ⟨task, inserted, applied, changed⟩ := applyEvent_congr (agree _ apart) applies
    have read' := read_record faithful reads ended read applied
    refine ⟨?_, ⟨replayed.insert event.taskId task,
      max nextSequence ((state.envelope event host).sequence + 1)⟩, ?_, ?_, ?_⟩
    · rw [file]
      exact record_ended _ _
    · rw [file]
      exact read'
    · intro id others
      have other := others event List.mem_cons_self
      rw [getElem?_insert, if_neg other]
      exact agree id fun stray member => others stray (List.mem_cons_of_mem _ member)
    · intro id task' found
      simp only [getElem?_insert]
      by_cases own : event.taskId = id
      · subst own
        refine ⟨task, if_pos rfl, .inr ?_⟩
        obtain ⟨_, _, id, _, rfl, rfl, _⟩ | ⟨old, found', fits⟩ := due.fits
        · cases (fresh id rfl).symm.trans found
        · cases found.symm.trans found'
          exact ⟨event, host.now, fits, changed _ found⟩
      · rw [if_neg own]
        exact behind id task' found

/-- One more stray record to look out for. -/
theorem Recorded.mono {strays' : List LedgerEvent} (recorded : Recorded codec strays state)
    (more : strays ⊆ strays') : Recorded codec strays' state := by
  obtain ⟨ended, replay, read, agree, behind⟩ := recorded
  refine ⟨ended, replay, read, ?_, behind⟩
  intro id others
  exact agree id fun other member => others other (more member)

/-- A failing write leaves a part of its record, or nothing, or a stray record. -/
theorem LedgerState.Faulted.recorded {hosts : Nat → Host}
    (failed : LedgerState.Faulted codec state event (hosts 0) error state')
    (events : List LedgerEvent)
    (recorded : Recorded codec strays state) (faithful : codec.Faithful readable)
    (reads : event.Readable readable) (apart : ∀ other ∈ strays, other.taskId ≠ event.taskId)
    (due : Due state request event) (fresh : ∀ id ∈ request.newId, state.tasks[id]? = none) :
    (∃ message, error = .io message) ∧
      (Recorded codec (stray codec state (event :: events) hosts ++ strays) state' ∨
        ¬ Jsonl.Ended newline state'.file) := by
  obtain ⟨fault, present, rfl, rfl⟩ := failed
  refine ⟨⟨_, rfl⟩, ?_⟩
  obtain ⟨part, whole⟩ :=
    recorded.faulted faithful reads apart due fresh (hosts 0) fault.written
  simp only [stray, present]
  split
  next all => exact .inl (whole all)
  next some => exact part (Nat.lt_of_not_le some)

/-- The strays of an append depend on the sequence number only. -/
theorem stray_congr {events : List LedgerEvent} {hosts : Nat → Host}
    (same : state.nextSequence = state'.nextSequence) :
    stray codec state events hosts = stray codec state' events hosts := by
  induction events generalizing state state' hosts with
  | nil => rfl
  | cons event events ih =>
    have envelope : state.envelope event (hosts 0) = state'.envelope event (hosts 0) := by
      rw [LedgerState.envelope, LedgerState.envelope, same]
    rw [stray, stray, envelope]
    split
    next => rfl
    next =>
      apply ih
      exact congrArg (· + 1) same

theorem Marks.recorded {nowUnixMs : Nat} {events : List LedgerEvent} {hosts : Nat → Host}
    {error : Option LedgerError}
    (marks : Marks codec nowUnixMs hosts state events error state')
    (recorded : Recorded codec strays state) (faithful : codec.Faithful readable)
    (apart : ∀ event ∈ events, ∀ other ∈ strays, other.taskId ≠ event.taskId) :
    Recorded codec (stray codec state events hosts ++ strays) state' ∨
      (¬ Jsonl.Ended newline state'.file ∧ ∃ message, error = some (.io message)) := by
  induction marks with
  | done => exact .inl recorded
  | @faulted _ _ _ event _ _ due failed =>
    have reads : event.Readable readable := due.reads trivial
    obtain ⟨io, kept | torn⟩ := failed.recorded _ recorded faithful reads
      (apart _ List.mem_cons_self) due (by intro id none; cases none)
    · exact .inl kept
    · obtain ⟨message, rfl⟩ := io
      exact .inr ⟨torn, message, rfl⟩
  | @appended hosts state middle last event events error due done marks ih =>
    have reads : event.Readable readable := due.reads trivial
    have next := recorded.appended faithful reads (apart _ List.mem_cons_self) done
    have rest := ih next fun event member => apart event (List.mem_cons_of_mem _ member)
    rw [stray, done.written]
    rwa [stray_congr done.nextSequence.symm]

/-- The file gives the tasks, unless the last append failed and left a part of its record. -/
def Kept (codec : Codec) (history : List Entry) (strays : List LedgerEvent)
    (state : LedgerState) : Prop :=
  Recorded codec strays state ∨
    (¬ Jsonl.Ended newline state.file ∧ history.findSome? Entry.appended ≠ some true)

theorem Performed.kept {hosts : Nat → Host} {reply : Except LedgerError Reply}
    {history : List Entry} (performed : Performed codec hosts state request reply state')
    (kept : Kept codec history strays state) (faithful : codec.Faithful readable)
    (reads : request.Readable readable) (separated : Separated strays state request)
    (fresh : ∀ id ∈ request.newId, state.tasks[id]? = none) :
    Kept codec (⟨state, request, reply, state'⟩ :: history)
      (stray codec state (request.events state) hosts ++ strays) state' := by
  have more := List.subset_append_right (stray codec state (request.events state) hosts) strays
  -- Behind a part of a record nothing is appended.
  have torn : ∀ event ∈ request.events state, Recorded codec strays state := by
    intro event member
    obtain recorded | ⟨torn, _⟩ := kept
    · exact recorded
    · exact absurd (separated event member).1 torn
  have nothing : state' = state → Kept codec (⟨state, request, reply, state'⟩ :: history)
      (stray codec state (request.events state) hosts ++ strays) state' := by
    intro same
    subst same
    obtain recorded | ⟨torn, failed⟩ := kept
    · exact .inl (recorded.mono more)
    · refine .inr ⟨torn, ?_⟩
      rw [List.findSome?_cons]
      cases reply with
      | ok reply => simpa [Entry.appended] using failed
      | error error => cases error <;> simp [Entry.appended, failed]
  cases performed with
  | quiet quiet => exact nothing rfl
  | @appended _ event _ _ due done left single =>
    have member : event ∈ request.events state := by rw [single]; exact List.mem_cons_self
    have recorded := torn event member
    exact .inl ((recorded.appended faithful (due.reads reads) (separated event member).2
      done).mono more)
  | @faulted _ event error _ due failed single =>
    have member : event ∈ request.events state := by rw [single]; exact List.mem_cons_self
    have left := failed.recorded [] (torn event member) faithful (due.reads reads)
      (separated event member).2 due fresh
    rw [← single] at left
    obtain ⟨⟨message, rfl⟩, recorded | ended⟩ := left
    · exact .inl recorded
    · exact .inr ⟨ended, by simp [Entry.appended, List.findSome?_cons]⟩
  | recovered marks distinct replied =>
    cases shown : Request.events state (.recoverExpired _) with
    | nil =>
      rw [shown] at marks
      cases marks
      rw [← shown]
      exact nothing rfl
    | cons event events =>
      have recorded := torn event (by rw [shown]; exact List.mem_cons_self)
      rw [shown] at marks
      obtain recorded' | ⟨ended, message, rfl⟩ := marks.recorded recorded faithful
        fun event member => (separated event (shown ▸ member)).2
      · exact .inl recorded'
      · obtain ⟨none, _⟩ | ⟨error, same, rfl⟩ := replied
        · cases none
        · cases same
          exact .inr ⟨ended, by simp [Entry.appended, List.findSome?_cons]⟩

end Instance

/-! ## Results -/

section Results

variable {codec : Codec} {readable : Json.Value → Prop} {start state : LedgerState}
variable {history : List Entry} {strays : List LedgerEvent} {file : Bytes}

/-- What holds in every run of an instance. -/
theorem InstanceRuns.kept (runs : InstanceRuns codec readable start history strays state)
    (faithful : codec.Faithful readable) (opened : openFile codec file = .ok start) :
    Kept codec history strays state ∧ Keyed state.tasks ∧
      (∀ (id : TaskId) (task : TaskRecord), state.tasks[id]? = some task →
        start.tasks[id]? ≠ none ∨ ∃ entry ∈ history, entry.request.newId = some id) ∧
      ∀ entry ∈ history, ∀ reply, entry.reply = .ok reply → ∀ task ∈ reply.records,
        ∃ task', state.tasks[task.id]? = some task' ∧ TaskRecord.Steps task task' := by
  induction runs with
  | start =>
    obtain ⟨read, same, _⟩ := openFile_ok opened
    refine ⟨?_, openFile_keyed opened, ?_, by simp⟩
    · by_cases ended : Jsonl.Ended newline start.file
      · rw [← same] at read
        refine .inl ⟨ended, _, read, fun _ _ => rfl, ?_⟩
        intro id task found
        exact ⟨task, found, .inl rfl⟩
      · exact .inr ⟨ended, by simp⟩
    · intro id task found
      exact .inl (by simp [found])
  | @call history strays state state' request hosts reply runs performed separated reads new ih =>
    obtain ⟨kept, keyed, known, told⟩ := ih
    have fresh : ∀ id ∈ request.newId, state.tasks[id]? = none := by
      intro id given
      obtain ⟨before, unused⟩ := new id given
      cases found : state.tasks[id]? with
      | none => rfl
      | some task =>
        obtain there | ⟨entry, member, same⟩ := known id task found
        · exact absurd before there
        · exact absurd same (unused entry member)
    have effect := LedgerState.perform_performed keyed performed
    refine ⟨effect.kept kept faithful reads separated fresh, effect.keyed keyed, ?_, ?_⟩
    · intro id task found
      cases before : state.tasks[id]? with
      | none => exact .inr ⟨_, List.mem_cons_self, effect.new before found⟩
      | some old =>
        obtain there | ⟨entry, member, same⟩ := known id old before
        · exact .inl there
        · exact .inr ⟨entry, List.mem_cons_of_mem _ member, same⟩
    · intro entry member answer accepted task listed
      cases List.mem_cons.mp member with
      | inl last =>
        subst last
        exact ⟨task, effect.records keyed accepted listed, .refl⟩
      | inr earlier =>
        obtain ⟨task', found, steps⟩ := told entry earlier answer accepted task listed
        obtain ⟨task'', found', steps'⟩ := effect.evolves fresh _ task' found
        exact ⟨task'', found', steps.trans steps'⟩

namespace Sample

/-- The disk is full after five bytes of the first append. -/
def full : Nat → Host := fun _ => ⟨1700000000000, some ⟨5, "No space left on device"⟩⟩

/-- The whole record is written, and then `sync_data` fails. -/
def unsynced : Nat → Host := fun _ => ⟨1700000000000, some ⟨1000, "Input/output error"⟩⟩

def empty : LedgerState := ⟨[], 0, ∅, ∅⟩

def first : Request := .submit "first" (.object [("work", .number (.posInt 1))]) ⟨"task_1"⟩ 1

def second : Request := .submit "second" (.object [("work", .number (.posInt 2))]) ⟨"task_2"⟩ 2

/-- The call of a method on a host. -/
def called (state : LedgerState) (request : Request) (hosts : Nat → Host) : Entry where
  before := state
  request := request
  reply := (state.perform serde request hosts).1
  after := (state.perform serde request hosts).2

/-- The first append leaves a part of its record. -/
def torn : Entry := called empty first full

/-- The second one is appended to that part. -/
def glued : Entry := called torn.after second hosts

/-- The first task is on the disk although its append failed. -/
def unacknowledged : Entry := called empty first unsynced

/-- The record that reached the file although its append failed. -/
def envelope : LedgerEnvelope where
  sequence := 0
  atUnixMs := 1700000000000
  event := .submitted
    (.submitted ⟨"task_1"⟩ "first" (.object [("work", .number (.posInt 1))]) 1)

theorem envelope_readable : envelope.event.Readable Json.Value.Plain :=
  ⟨⟨trivial, trivial⟩, rfl⟩

theorem unacknowledged_file : unacknowledged.after.file = LedgerState.record serde envelope := by
  have written : unacknowledged.after.file =
      [] ++ (LedgerState.record serde envelope).take 1000 := rfl
  have length : (LedgerState.record serde envelope).length ≤ 1000 := by decide +kernel
  rw [written, List.take_of_length_le length, List.nil_append]

theorem unacknowledged_ended : Jsonl.Ended newline unacknowledged.after.file := by
  have ended : Jsonl.Ended newline ([] ++ LedgerState.record serde envelope) :=
    record_ended [] envelope
  rwa [List.nil_append, ← unacknowledged_file] at ended

/-- The second append is about another task. -/
def acknowledged : Entry := called unacknowledged.after second hosts

theorem instanceRuns : ∃ strays,
    InstanceRuns serde Json.Value.Plain empty [acknowledged, unacknowledged] strays
      acknowledged.after := by
  have before : InstanceRuns serde Json.Value.Plain empty [] [] empty := .start
  have lost : empty.perform serde first unsynced = (unacknowledged.reply, unacknowledged.after) :=
    rfl
  have kept : unacknowledged.after.perform serde second hosts =
      (acknowledged.reply, acknowledged.after) := rfl
  have failed := before.call lost (by decide) ⟨trivial, trivial⟩ (by decide)
  have others : ∀ event ∈ second.events unacknowledged.after, ∀ other ∈ first.events empty,
      other.taskId ≠ event.taskId := by decide
  refine ⟨_, failed.call kept ?_ ⟨trivial, trivial⟩ (by decide)⟩
  intro event member
  refine ⟨unacknowledged_ended, ?_⟩
  intro other stray
  rw [List.append_nil] at stray
  exact others event member other (mem_of_stray stray)

end Sample

end Results

end Nausicaa.TaskLedger
