import Nausicaa.TaskLedger.Durability

/-! # Submitting again

A submission is found by its key in memory, and memory is what the file gave when it was
opened, with what was appended since.  A record that reached the file although its append
failed is not in memory: submitting its key again makes a second task with that key
(`KnownKeyRuns.submitted_twice`).  When a key that memory does not know is not in the file
either, submitting is idempotent (`KnownKeyRuns.idempotent`). -/

namespace Nausicaa.TaskLedger

/-- A key that memory does not know is not in the file. -/
def KnownKey (codec : Codec) (state : LedgerState) (request : Request) : Prop :=
  ∀ key payload id now, request = .submit key payload id now →
    (state.idempotency[key]?.bind fun taskId => state.tasks[taskId]?) = none →
    ∀ reopened, openFile codec state.file = .ok reopened →
      ∀ (id : TaskId) (task : TaskRecord), reopened.tasks[id]? = some task →
        task.idempotencyKey ≠ key

/-- The runs in which submitted keys are known if the file has them.  Any append may fail. -/
abbrev KnownKeyRuns (codec : Codec) (readable : Json.Value → Prop) :
    List Entry → LedgerState → Prop :=
  Runs codec readable fun state request _ => KnownKey codec state request

/-- The call made a task with the key. -/
def Entry.creates (key : String) (entry : Entry) : Bool :=
  match entry.request, entry.reply with
  | .submit idempotencyKey _ _ _, .ok (.submission made) =>
    decide (idempotencyKey = key) && made.created
  | _, _ => false

/-- The tasks are there, with their keys. -/
def Keeps (tasks tasks' : Tasks) : Prop :=
  ∀ (id : TaskId) (task : TaskRecord), tasks[id]? = some task →
    ∃ task', tasks'[id]? = some task' ∧ task'.idempotencyKey = task.idempotencyKey

theorem Evolves.keeps {tasks tasks' : Tasks} (evolves : Evolves tasks tasks') :
    Keeps tasks tasks' := by
  intro id task found
  obtain ⟨task', found', steps⟩ := evolves id task found
  exact ⟨task', found', steps.sameTask.idempotencyKey⟩

/-! ## The file -/

/-- The tasks of the file: those in memory, and others that calls made. -/
structure Holds (made : TaskId → Prop) (memory tasks : Tasks) : Prop where
  keyed : Keyed tasks
  unique : UniqueKeys tasks
  keeps : Keeps memory tasks
  made : ∀ (id : TaskId) (task : TaskRecord), tasks[id]? = some task → made id

/-- What a file can be like when appends failed: its lines hold the tasks, or a record behind
them lacks its newline, or it cannot be opened. -/
inductive Status (codec : Codec) (readable : Json.Value → Prop) (made : TaskId → Prop)
    (memory : Tasks) : Bytes → Prop where
  | whole {file : Bytes} {tasks : Tasks} {nextSequence : Nat} : Jsonl.Ended newline file →
    Replay.start.lines codec 0 (Jsonl.lines newline file) = .ok ⟨tasks, nextSequence⟩ →
    Holds made memory tasks → Status codec readable made memory file
  | unterminated {base : Bytes} {envelope : LedgerEnvelope} {tasks tasks' : Tasks}
      {nextSequence : Nat} : Jsonl.Ended newline base →
    Replay.start.lines codec 0 (Jsonl.lines newline base) = .ok ⟨tasks, nextSequence⟩ →
    envelope.event.Readable readable →
    applyEvent tasks envelope.event envelope.atUnixMs = .ok tasks' →
    Holds made memory tasks' →
    Status codec readable made memory (base ++ Text.encode (codec.encode envelope))
  | torn {file : Bytes} : Torn codec readable file → Status codec readable made memory file
  | spoiled {file : Bytes} : Spoiled codec file → Status codec readable made memory file

section Files

variable {codec : Codec} {readable : Json.Value → Prop} {made made' : TaskId → Prop}
variable {memory memory' tasks : Tasks} {file : Bytes}

theorem Holds.mono (holds : Holds made memory tasks) (more : ∀ id, made id → made' id) :
    Holds made' memory tasks where
  keyed := holds.keyed
  unique := holds.unique
  keeps := holds.keeps
  made id task found := more id (holds.made id task found)

theorem Status.mono (status : Status codec readable made memory file)
    (more : ∀ id, made id → made' id) : Status codec readable made' memory file := by
  cases status with
  | whole ended read holds => exact .whole ended read (holds.mono more)
  | unterminated ended read reads applied holds =>
    exact .unterminated ended read reads applied (holds.mono more)
  | torn torn => exact .torn torn
  | spoiled spoiled => exact .spoiled spoiled

/-- Opening the file gives tasks that hold those in memory. -/
theorem Status.opened (status : Status codec readable made memory file)
    (faithful : codec.Faithful readable) (unjoined : codec.Unjoined readable)
    {state : LedgerState} (opened : openFile codec file = .ok state) :
    Holds made memory state.tasks ∧ Status codec readable made state.tasks file := by
  obtain ⟨read, _, _⟩ := openFile_ok opened
  have itself : ∀ tasks, Holds made memory tasks → Holds made tasks tasks := by
    intro tasks holds
    exact ⟨holds.keyed, holds.unique, fun id task found => ⟨task, found, rfl⟩, holds.made⟩
  cases status with
  | whole ended read' holds =>
    cases read.symm.trans read'
    exact ⟨holds, .whole ended read' (itself _ holds)⟩
  | unterminated ended before reads applied holds =>
    have read' := read_unterminated faithful reads ended before applied
    have same := congrArg Replay.tasks (Except.ok.inj (read.symm.trans read'))
    have same : state.tasks = _ := same
    rw [same]
    exact ⟨holds, .unterminated ended before reads applied (itself _ holds)⟩
  | torn torn =>
    obtain ⟨error, refused⟩ := torn.refused faithful unjoined
    cases opened.symm.trans refused
  | spoiled spoiled =>
    obtain ⟨error, refused⟩ := spoiled []
    rw [List.append_nil] at refused
    cases opened.symm.trans refused

variable {envelope : LedgerEnvelope}

/-- A whole record is appended. -/
theorem Status.record (status : Status codec readable made memory file)
    (faithful : codec.Faithful readable) (unjoined : codec.Unjoined readable)
    (reads : envelope.event.Readable readable)
    (step : ∀ state, openFile codec file = .ok state → Holds made memory state.tasks →
      ∃ tasks', applyEvent state.tasks envelope.event envelope.atUnixMs = .ok tasks' ∧
        Holds made' memory' tasks') :
    Status codec readable made' memory' (file ++ LedgerState.record codec envelope) := by
  cases status with
  | @whole _ tasks nextSequence ended read holds =>
    have opened : openFile codec file = .ok ⟨file, nextSequence, tasks, indexOf tasks⟩ := by
      rw [openFile, read]
    obtain ⟨tasks', applied, holds'⟩ := step _ opened holds
    exact .whole (record_ended _ _) (read_record faithful reads ended read applied) holds'
  | @unterminated base last tasks tasks' nextSequence ended read reads' applied holds =>
    have all : ∀ part ∈ [Text.encode (codec.encode last)], codec.Cut readable part := by
      intro part member
      exact List.mem_singleton.mp member ▸ .whole reads' faithful
    have spoiled := Spoiled.record ended (by simp) all faithful unjoined reads
    rw [List.flatten_singleton] at spoiled
    exact .spoiled spoiled
  | torn torn => exact .spoiled (torn.record faithful unjoined reads)
  | spoiled spoiled => exact .spoiled (spoiled.append _)

/-- What a failing write adds: nothing, a part of the record, or all of it. -/
theorem take_record (codec : Codec) (envelope : LedgerEnvelope) (written : Nat) :
    let text := Text.encode (codec.encode envelope)
    let added := (LedgerState.record codec envelope).take written
    added = [] ∨ (added = text.take written ∧ 0 < written ∧ written < text.length) ∨
      added = text ∨ added = LedgerState.record codec envelope := by
  intro text added
  have length : (LedgerState.record codec envelope).length = text.length + 1 := by
    simp [LedgerState.record, text]
  by_cases none : written = 0
  · exact .inl (by simp [added, none])
  · by_cases all : text.length < written
    · exact .inr (.inr (.inr (List.take_of_length_le (by omega))))
    · have within : added = text.take written := by
        simp only [added, LedgerState.record]
        rw [List.take_append_of_le_length (Nat.le_of_not_lt all)]
      by_cases exact' : written = text.length
      · exact .inr (.inr (.inl (by rw [within, exact', List.take_length])))
      · exact .inr (.inl ⟨within, by omega, by omega⟩)

/-- A part is appended to a file that does not end with a newline. -/
theorem Status.again {part : Bytes} (status : Status codec readable made memory file)
    (faithful : codec.Faithful readable) (cut : codec.Cut readable part) :
    Jsonl.Ended newline file ∨ Status codec readable made' memory' (file ++ part) := by
  cases status with
  | whole ended read holds => exact .inl ended
  | unterminated ended read reads applied holds =>
    exact .inr (.torn (.behind ended faithful reads cut))
  | torn torn => exact .inr (.torn (torn.again cut))
  | spoiled spoiled => exact .inr (.spoiled (spoiled.append part))

/-- A failing write appends to the file, and memory stays as it is. -/
theorem Status.part (status : Status codec readable made memory file)
    (faithful : codec.Faithful readable) (unjoined : codec.Unjoined readable)
    (reads : envelope.event.Readable readable) (more : ∀ id, made id → made' id)
    (step : ∀ state, openFile codec file = .ok state → Holds made memory state.tasks →
      ∃ tasks', applyEvent state.tasks envelope.event envelope.atUnixMs = .ok tasks' ∧
        Holds made' memory tasks') (written : Nat) :
    Status codec readable made' memory
      (file ++ (LedgerState.record codec envelope).take written) := by
  obtain none | ⟨within, some, missing⟩ | text | record := take_record codec envelope written
  · rw [none, List.append_nil]
    exact status.mono more
  · rw [within]
    obtain ended | again := status.again faithful (.take reads some faithful)
    · exact .torn (.cut ended faithful reads some missing)
    · exact again
  · rw [text]
    cases status with
    | @whole _ tasks nextSequence ended read holds =>
      have opened : openFile codec file = .ok ⟨file, nextSequence, tasks, indexOf tasks⟩ := by
        rw [openFile, read]
      obtain ⟨tasks', applied, holds'⟩ := step _ opened holds
      exact .unterminated ended read reads applied holds'
    | unterminated ended read reads' applied holds =>
      exact .torn (.behind ended faithful reads' (.whole reads faithful))
    | torn torn => exact .torn (torn.again (.whole reads faithful))
    | spoiled spoiled => exact .spoiled (spoiled.append _)
  · rw [record]
    exact status.record faithful unjoined reads step

end Files

/-! ## Memory and the file -/

section Keeps

variable {memory tasks : Tasks} {id : TaskId} {task task' : TaskRecord}

theorem Keeps.insert (keeps : Keeps memory tasks)
    (same : task'.idempotencyKey = task.idempotencyKey) :
    Keeps (memory.insert id task) (tasks.insert id task') := by
  intro other old found
  rw [getElem?_insert] at found ⊢
  split at found
  next own =>
    cases found
    exact ⟨task', if_pos own, same⟩
  next apart =>
    rw [if_neg apart]
    exact keeps other old found

theorem Keeps.insert_right (keeps : Keeps memory tasks)
    (same : ∀ old, memory[id]? = some old → task'.idempotencyKey = old.idempotencyKey) :
    Keeps memory (tasks.insert id task') := by
  intro other old found
  rw [getElem?_insert]
  by_cases own : id = other
  · subst own
    exact ⟨task', if_pos rfl, same old found⟩
  · rw [if_neg own]
    exact keeps other old found

end Keeps

theorem change_idempotencyKey {event : LedgerEvent} {eventTime : Nat} {task : TaskRecord}
    (other : ∀ task, event ≠ .submitted task) :
    (event.change eventTime task).idempotencyKey = task.idempotencyKey := by
  cases event with
  | submitted task => exact absurd rfl (other task)
  | _ => rfl

section Appending

variable {codec : Codec} {readable : Json.Value → Prop} {made : TaskId → Prop}
variable {state state' : LedgerState} {tasks : Tasks} {request : Request} {event : LedgerEvent}

/-- What an event makes of its task, in the file and in memory. -/
theorem Holds.inserts (codec : Codec) (holds : Holds made state.tasks tasks) (due : Due state request event)
    (fresh : ∀ id ∈ request.newId, ¬ made id)
    (newKey : ∀ new, event = .submitted new → ∀ (id : TaskId) (task : TaskRecord),
      tasks[id]? = some task → task.idempotencyKey ≠ new.idempotencyKey) (host : Host) :
    ∃ task task' : TaskRecord,
      applyEvent tasks event host.now = .ok (tasks.insert event.taskId task') ∧
      UniqueKeys (tasks.insert event.taskId task') ∧
      (∀ state', LedgerState.Appended codec state event host state' →
        state'.tasks = state.tasks.insert event.taskId task) ∧
      task'.idempotencyKey = task.idempotencyKey ∧
      (∀ old, state.tasks[event.taskId]? = some old →
        task'.idempotencyKey = old.idempotencyKey) ∧
      (made event.taskId ∨ request.newId = some event.taskId) := by
  obtain ⟨key, payload, id, now, rfl, rfl, new⟩ | ⟨old, found, fits⟩ := due.fits
  · refine ⟨_, _, rfl, holds.unique.insert (newKey _ rfl), ?_, rfl, ?_, .inr rfl⟩
    · intro state' done
      exact (Except.ok.inj done.tasks).symm
    · intro old found
      obtain ⟨other, there, _⟩ := holds.keeps id old found
      exact absurd (holds.made id other there) (fresh id rfl)
  · obtain ⟨other, there, same⟩ := holds.keeps _ old found
    have key : ∀ task, (event.change host.now task).idempotencyKey = task.idempotencyKey := by
      intro task
      apply change_idempotencyKey
      intro new submitted
      subst submitted
      cases fits
    refine ⟨event.change host.now old, _, applyEvent_found there,
      holds.unique.update there (key other), fun state' done => done.insert found,
      (key other).trans (same.trans (key old).symm), ?_, .inl (holds.made _ other there)⟩
    intro old' found'
    cases found.symm.trans found'
    exact (key other).trans same

/-- The event of an append can be applied to the tasks of the file, whether the append
succeeds or only its record gets there. -/
theorem Holds.applied (codec : Codec) (holds : Holds made state.tasks tasks) (due : Due state request event)
    (fresh : ∀ id ∈ request.newId, ¬ made id)
    (newKey : ∀ new, event = .submitted new → ∀ (id : TaskId) (task : TaskRecord),
      tasks[id]? = some task → task.idempotencyKey ≠ new.idempotencyKey) (host : Host) :
    ∃ tasks', applyEvent tasks event host.now = .ok tasks' ∧
      Holds (fun id => made id ∨ request.newId = some id) state.tasks tasks' ∧
      ∀ state', LedgerState.Appended codec state event host state' →
        Holds (fun id => made id ∨ request.newId = some id) state'.tasks tasks' := by
  obtain ⟨task, task', applied, unique, memory, same, kept, known⟩ :=
    holds.inserts codec due fresh newKey host
  have keyed := holds.keyed.applyEvent applied
  have made' : ∀ (id : TaskId) (present : TaskRecord),
      (tasks.insert event.taskId task')[id]? = some present →
        made id ∨ request.newId = some id := by
    intro id present found
    rw [getElem?_insert] at found
    split at found
    next own => exact own ▸ known
    next apart => exact .inl (holds.made id present found)
  refine ⟨_, applied, ⟨keyed, unique, holds.keeps.insert_right kept, made'⟩, ?_⟩
  intro state' done
  rw [memory state' done]
  exact ⟨keyed, unique, holds.keeps.insert same, made'⟩

/-- The key of a due submission is new to the file. -/
theorem KnownKey.newKey (known : KnownKey codec state request) (due : Due state request event)
    {opened : LedgerState} (reads : openFile codec state.file = .ok opened) (new : TaskRecord)
    (submitted : event = .submitted new) (id : TaskId) (task : TaskRecord)
    (found : opened.tasks[id]? = some task) : task.idempotencyKey ≠ new.idempotencyKey := by
  cases due with
  | submit unknown =>
    cases submitted
    exact known _ _ _ _ rfl unknown opened reads id task found
  | _ => cases submitted

variable {host : Host} {error : LedgerError}

theorem Status.appended (status : Status codec readable made state.tasks state.file)
    (faithful : codec.Faithful readable) (unjoined : codec.Unjoined readable)
    (reads : event.Readable readable) (known : KnownKey codec state request)
    (due : Due state request event) (fresh : ∀ id ∈ request.newId, ¬ made id)
    (done : LedgerState.Appended codec state event host state') :
    Status codec readable (fun id => made id ∨ request.newId = some id) state'.tasks
      state'.file := by
  rw [done.file]
  apply status.record faithful unjoined reads
  intro opened open' holds
  obtain ⟨tasks', applied, _, both⟩ :=
    holds.applied codec due fresh (known.newKey due open') host
  exact ⟨tasks', applied, both state' done⟩

theorem Status.faulted (status : Status codec readable made state.tasks state.file)
    (faithful : codec.Faithful readable) (unjoined : codec.Unjoined readable)
    (reads : event.Readable readable) (known : KnownKey codec state request)
    (due : Due state request event) (fresh : ∀ id ∈ request.newId, ¬ made id)
    (failed : LedgerState.Faulted codec state event host error state') :
    Status codec readable (fun id => made id ∨ request.newId = some id) state'.tasks
      state'.file := by
  obtain ⟨fault, _, _, rfl⟩ := failed
  refine status.part faithful unjoined reads (fun id => .inl) ?_ fault.written
  intro opened open' holds
  obtain ⟨tasks', applied, memory, _⟩ :=
    holds.applied codec due fresh (known.newKey due open') host
  exact ⟨tasks', applied, memory⟩

end Appending

/-! ## Calls -/

section Calls

variable {codec : Codec} {readable : Json.Value → Prop} {made : TaskId → Prop}
variable {state state' : LedgerState} {request : Request} {hosts : Nat → Host}
variable {reply : Except LedgerError Reply} {nowUnixMs : Nat} {events : List LedgerEvent}
variable {error : Option LedgerError} {history : List Entry}

theorem Marks.status (marks : Marks codec nowUnixMs hosts state events error state')
    (faithful : codec.Faithful readable) (unjoined : codec.Unjoined readable)
    (status : Status codec readable made state.tasks state.file) :
    Status codec readable made state'.tasks state'.file := by
  have others : ∀ state, KnownKey codec state (.recoverExpired nowUnixMs) := by
    intro state key payload id now submitted
    cases submitted
  have none : ∀ id ∈ (Request.recoverExpired nowUnixMs).newId, ¬ made id := by
    intro id none
    cases none
  have plain : (Request.recoverExpired nowUnixMs).Readable readable := trivial
  have back : ∀ id, made id ∨ (Request.recoverExpired nowUnixMs).newId = some id → made id := by
    intro id known
    cases known with
    | inl known => exact known
    | inr none => cases none
  induction marks with
  | done => exact status
  | faulted due failed =>
    have status' := status.faulted faithful unjoined (due.reads plain) (others _) due none failed
    exact status'.mono back
  | appended due done _ ih =>
    have status' := status.appended faithful unjoined (due.reads plain) (others _) due none done
    exact ih (status'.mono back)

theorem Marks.indexed (marks : Marks codec nowUnixMs hosts state events error state')
    (indexed : Indexed state) : Indexed state' := by
  induction marks with
  | done => exact indexed
  | faulted due failed =>
    obtain ⟨_, _, _, rfl⟩ := failed
    exact ⟨indexed.keyed, indexed.unique, indexed.indexed⟩
  | appended due done _ ih =>
    exact ih (indexed.appended due (due.fresh fun id none => by cases none) done)

theorem Performed.indexed (performed : Performed codec hosts state request reply state')
    (fresh : ∀ id ∈ request.newId, state.tasks[id]? = none) (indexed : Indexed state) :
    Indexed state' := by
  cases performed with
  | quiet quiet => exact indexed
  | appended due done left => exact indexed.appended due (due.fresh fresh) done
  | faulted due failed =>
    obtain ⟨_, _, _, rfl⟩ := failed
    exact ⟨indexed.keyed, indexed.unique, indexed.indexed⟩
  | recovered marks distinct replied => exact marks.indexed indexed

theorem Performed.status (performed : Performed codec hosts state request reply state')
    (faithful : codec.Faithful readable) (unjoined : codec.Unjoined readable)
    (reads : request.Readable readable) (known : KnownKey codec state request)
    (fresh : ∀ id ∈ request.newId, ¬ made id)
    (status : Status codec readable made state.tasks state.file) :
    Status codec readable (fun id => made id ∨ request.newId = some id) state'.tasks
      state'.file := by
  cases performed with
  | quiet quiet => exact status.mono fun id => .inl
  | appended due done left =>
    exact status.appended faithful unjoined (due.reads reads) known due fresh done
  | faulted due failed =>
    exact status.faulted faithful unjoined (due.reads reads) known due fresh failed
  | recovered marks distinct replied =>
    exact (marks.status faithful unjoined status).mono fun id => .inl

/-- The task that is replied to a submission is in memory under the key, and it is only
created if memory does not know the key. -/
theorem Performed.submission {key : String} {payload : Json.Value} {id : TaskId} {now : Nat}
    {submission : Submission}
    (performed : Performed codec hosts state (.submit key payload id now) reply state')
    (indexed : Indexed state) (accepted : reply = .ok (.submission submission)) :
    state'.tasks[submission.task.id]? = some submission.task ∧
      submission.task.idempotencyKey = key ∧
      (submission.created = true → ∀ (id : TaskId) (task : TaskRecord),
        state.tasks[id]? = some task → task.idempotencyKey ≠ key) := by
  cases performed with
  | quiet quiet =>
    cases quiet with
    | refused error => cases accepted
    | existing known present =>
      cases accepted
      obtain ⟨task, found, same⟩ := (indexed.indexed _ _).mp known
      cases found.symm.trans present
      refine ⟨?_, same, by intro none; cases none⟩
      rw [indexed.keyed _ _ present]
      exact present
  | appended due done left =>
    cases due with
    | submit new =>
      cases accepted
      obtain ⟨task, there, same | ⟨_, _, same⟩⟩ := done.left
      · cases same
        exact ⟨there, rfl, fun _ => indexed.newKey new⟩
      · rw [LedgerEvent.change] at same
        subst same
        exact ⟨there, rfl, fun _ => indexed.newKey new⟩
  | faulted due failed => cases accepted

/-- The ids that the calls were given for new tasks. -/
def Made (history : List Entry) (id : TaskId) : Prop :=
  ∃ entry ∈ history, entry.request.newId = some id

/-- Memory has a task with the key. -/
def LedgerState.HasKey (state : LedgerState) (key : String) : Prop :=
  ∃ (id : TaskId) (task : TaskRecord), state.tasks[id]? = some task ∧ task.idempotencyKey = key

/-- The invariant. -/
structure Submitted (codec : Codec) (readable : Json.Value → Prop) (history : List Entry)
    (state : LedgerState) : Prop where
  indexed : Indexed state
  made : ∀ (id : TaskId) (task : TaskRecord), state.tasks[id]? = some task → Made history id
  status : Status codec readable (Made history) state.tasks state.file
  told : ∀ entry ∈ history, ∀ key payload id now submission,
    entry.request = .submit key payload id now → entry.reply = .ok (.submission submission) →
    ∃ task, state.tasks[submission.task.id]? = some task ∧ task.idempotencyKey = key
  created : ∀ key, history.countP (Entry.creates key) ≤ 1 ∧
    (history.countP (Entry.creates key) = 0 ∨ state.HasKey key)

theorem LedgerState.HasKey.keeps {key : String} (has : state.HasKey key)
    (keeps : Keeps state.tasks state'.tasks) : state'.HasKey key := by
  obtain ⟨id, task, found, same⟩ := has
  obtain ⟨task', found', same'⟩ := keeps id task found
  exact ⟨id, task', found', same'.trans same⟩

theorem Submitted.reopen (submitted : Submitted codec readable history state)
    (faithful : codec.Faithful readable) (unjoined : codec.Unjoined readable)
    (opened : openFile codec state.file = .ok state') : Submitted codec readable history state' := by
  obtain ⟨holds, status⟩ := submitted.status.opened faithful unjoined opened
  obtain ⟨_, file, index⟩ := openFile_ok opened
  refine ⟨⟨holds.keyed, holds.unique, ?_⟩, holds.made, file ▸ status, ?_, ?_⟩
  · rw [index]
    exact indexes_indexOf holds.keyed holds.unique
  · intro entry member key payload id now submission asked accepted
    obtain ⟨task, found, same⟩ :=
      submitted.told entry member key payload id now submission asked accepted
    obtain ⟨task', found', same'⟩ := holds.keeps _ task found
    exact ⟨task', found', same'.trans same⟩
  · intro key
    obtain ⟨once, never | has⟩ := submitted.created key
    · exact ⟨once, .inl never⟩
    · exact ⟨once, .inr (has.keeps holds.keeps)⟩

/-- A call that creates a task is a submission that memory did not know. -/
theorem Entry.creates_submission {key : String} {entry : Entry}
    (creates : entry.creates key = true) : ∃ payload id now submission,
      entry.request = .submit key payload id now ∧ entry.reply = .ok (.submission submission) ∧
        submission.created = true := by
  rw [Entry.creates] at creates
  split at creates
  next idempotencyKey payload id now submission asked accepted =>
    obtain ⟨same, created⟩ := Bool.and_eq_true_iff.mp creates
    rw [decide_eq_true_eq] at same
    subst same
    exact ⟨payload, id, now, submission, asked, accepted, created⟩
  next => cases creates

theorem Submitted.call (submitted : Submitted codec readable history state)
    (faithful : codec.Faithful readable) (unjoined : codec.Unjoined readable)
    (performed : state.perform codec request hosts = (reply, state'))
    (known : KnownKey codec state request) (reads : request.Readable readable)
    (new : ∀ id ∈ request.newId, ¬ Made history id) :
    Submitted codec readable (⟨state, request, reply, state'⟩ :: history) state' := by
  have fresh : ∀ id ∈ request.newId, state.tasks[id]? = none := by
    intro id given
    cases found : state.tasks[id]? with
    | none => rfl
    | some task => exact absurd (submitted.made id task found) (new id given)
  have effect := LedgerState.perform_performed submitted.indexed.keyed performed
  have keeps := (effect.evolves fresh).keeps
  have more : ∀ id, Made history id ∨ request.newId = some id →
      Made (⟨state, request, reply, state'⟩ :: history) id := by
    intro id known
    obtain ⟨entry, member, same⟩ | own := known
    · exact ⟨entry, List.mem_cons_of_mem _ member, same⟩
    · exact ⟨_, List.mem_cons_self, own⟩
  refine ⟨effect.indexed fresh submitted.indexed, ?_,
    (effect.status faithful unjoined reads known new submitted.status).mono more, ?_, ?_⟩
  · intro id task found
    cases before : state.tasks[id]? with
    | none => exact more id (.inr (effect.new before found))
    | some old => exact more id (.inl (submitted.made id old before))
  · intro entry member key payload id now submission asked accepted
    cases List.mem_cons.mp member with
    | inl last =>
      subst last
      subst asked
      obtain ⟨there, same, _⟩ := effect.submission submitted.indexed accepted
      exact ⟨_, there, same⟩
    | inr earlier =>
      obtain ⟨task, found, same⟩ :=
        submitted.told entry earlier key payload id now submission asked accepted
      obtain ⟨task', found', same'⟩ := keeps _ task found
      exact ⟨task', found', same'.trans same⟩
  · intro key
    obtain ⟨once, before⟩ := submitted.created key
    rw [List.countP_cons]
    by_cases creates : Entry.creates key ⟨state, request, reply, state'⟩ = true
    · obtain ⟨payload, id, now, submission, rfl, accepted, created⟩ :=
        Entry.creates_submission creates
      obtain ⟨there, same, unknown⟩ := effect.submission submitted.indexed accepted
      obtain never | ⟨id', task, found, known⟩ := before
      · simp only [if_pos creates, never]
        exact ⟨Nat.le_refl _, .inr ⟨_, _, there, same⟩⟩
      · exact absurd known (unknown created id' task found)
    · rw [if_neg creates]
      obtain never | has := before
      · exact ⟨once, .inl never⟩
      · exact ⟨once, .inr (has.keeps keeps)⟩

end Calls

/-! ## Results -/

section Results

variable {codec : Codec} {readable : Json.Value → Prop} {history : List Entry}
variable {state : LedgerState}

theorem KnownKeyRuns.submitted (runs : KnownKeyRuns codec readable history state)
    (faithful : codec.Faithful readable) (unjoined : codec.Unjoined readable) :
    Submitted codec readable history state := by
  induction runs with
  | create opened =>
    cases opened
    have none : ∀ (id : TaskId) (task : TaskRecord), (∅ : Tasks)[id]? ≠ some task := by simp
    refine ⟨.empty, ?_, ?_, by simp, by simp⟩
    · intro id task found
      exact absurd found (none id task)
    · refine .whole (.inl rfl) rfl ⟨.empty, Indexed.empty.unique, ?_, ?_⟩
      · intro id task found
        exact absurd found (none id task)
      · intro id task found
        exact absurd found (none id task)
  | call runs performed known reads new ih =>
    refine ih.call faithful unjoined performed known reads ?_
    intro id given made
    obtain ⟨entry, member, same⟩ := made
    exact new id given entry member same
  | reopen runs opened ih => exact ih.reopen faithful unjoined opened

namespace Sample

def storedTasks : Tasks := (∅ : Tasks).insert ⟨"task_1"⟩
  (.submitted ⟨"task_1"⟩ "first" (.object [("work", .number (.posInt 1))]) 1)

theorem unacknowledged_read : Replay.start.lines serde 0
    (Jsonl.lines newline unacknowledged.after.file) = .ok ⟨storedTasks, 1⟩ := by
  have read : Replay.start.lines serde 0 (Jsonl.lines newline
      ([] ++ LedgerState.record serde envelope)) = .ok ⟨storedTasks, max 0 (0 + 1)⟩ :=
    read_record serde_faithful envelope_readable (.inl rfl) rfl rfl
  rwa [List.nil_append, ← unacknowledged_file] at read

/-- The file is opened again after the failed append. -/
def reopened : LedgerState :=
  ⟨unacknowledged.after.file, 1, storedTasks, indexOf storedTasks⟩

/-- The first submission again, with the id that is made for it now. -/
def again : Request := .submit "first" (.object [("work", .number (.posInt 1))]) ⟨"task_2"⟩ 2

def known : Entry := called reopened again hosts

theorem knownKeyRuns : KnownKeyRuns serde Json.Value.Plain [known, unacknowledged] known.after := by
  have start : KnownKeyRuns serde Json.Value.Plain [] empty := .create rfl
  have lost : KnownKeyRuns serde Json.Value.Plain [unacknowledged] unacknowledged.after := by
    have failed : empty.perform serde first unsynced =
        (unacknowledged.reply, unacknowledged.after) := rfl
    refine .call start failed ?_ ⟨trivial, trivial⟩ (by intro _ _ _ none; cases none)
    intro key payload id now _ _ opened read id' task found
    cases read
    simp [Replay.start] at found
  have opened : openFile serde unacknowledged.after.file = .ok reopened := by
    rw [openFile, unacknowledged_read]
    rfl
  have asked : reopened.perform serde again hosts = (known.reply, known.after) := rfl
  refine .call (.reopen lost opened) asked ?_ ⟨trivial, trivial⟩ ?_
  · intro key payload id now asked unknown
    cases asked
    have found : (reopened.idempotency["first"]?.bind fun taskId =>
      reopened.tasks[taskId]?).isNone = false := by decide
    rw [unknown] at found
    cases found
  · intro id given entry member
    cases given
    cases List.mem_singleton.mp member
    decide

/-- The first submission is made again on the same instance. -/
def retried : Entry := called unacknowledged.after again hosts

end Sample

/-- Submissions with one key that return `Ok` return one task, which one of them at most
creates, and a file that can be opened has no two tasks with that key. -/
theorem KnownKeyRuns.idempotent (faithful : codec.Faithful readable)
    (unjoined : codec.Unjoined readable) (runs : KnownKeyRuns codec readable history state) :
    (∀ entry ∈ history, ∀ other ∈ history,
      ∀ key payload id now submission payload' id' now' submission',
        entry.request = .submit key payload id now →
        entry.reply = .ok (.submission submission) →
        other.request = .submit key payload' id' now' →
        other.reply = .ok (.submission submission') → submission.task.id = submission'.task.id) ∧
    (∀ key, history.countP (Entry.creates key) ≤ 1) ∧
    ∀ reopened, openFile codec state.file = .ok reopened →
      ∀ (id id' : TaskId) (task task' : TaskRecord), reopened.tasks[id]? = some task →
        reopened.tasks[id']? = some task' → task.idempotencyKey = task'.idempotencyKey →
        id = id' := by
  have submitted := KnownKeyRuns.submitted runs faithful unjoined
  refine ⟨?_, fun key => (submitted.created key).1, ?_⟩
  · intro entry member other member' key payload id now submission payload' id' now' submission'
      asked accepted asked' accepted'
    obtain ⟨task, found, same⟩ :=
      submitted.told entry member key payload id now submission asked accepted
    obtain ⟨task', found', same'⟩ :=
      submitted.told other member' key payload' id' now' submission' asked' accepted'
    exact submitted.indexed.unique _ _ task task' found found' (same.trans same'.symm)
  · intro reopened opened
    exact (submitted.status.opened faithful unjoined opened).1.unique

theorem KnownKeyRuns.idempotent_sample :
    [Sample.known, Sample.unacknowledged].countP (Entry.creates "first") ≤ 1 := by
  obtain ⟨_, once, _⟩ :=
    KnownKeyRuns.idempotent serde_faithful (serde_unjoined _) Sample.knownKeyRuns
  exact once "first"

/-- Without opening the file, the submission that failed is made again: the file then has two
tasks with one key. -/
theorem KnownKeyRuns.submitted_twice :
    Runs serde Json.Value.Plain (fun _ _ _ => True) [Sample.retried, Sample.unacknowledged]
      Sample.retried.after ∧
    (∃ error, Sample.unacknowledged.reply = .error error) ∧
    (∃ submission, Sample.retried.reply = .ok (.submission submission)) ∧
    ∃ reopened, openFile serde Sample.retried.after.file = .ok reopened ∧
      ∃ task task', reopened.tasks[(⟨"task_1"⟩ : TaskId)]? = some task ∧
        reopened.tasks[(⟨"task_2"⟩ : TaskId)]? = some task' ∧
        task.idempotencyKey = "first" ∧ task'.idempotencyKey = "first" := by
  let new : TaskRecord :=
    .submitted ⟨"task_2"⟩ "first" (.object [("work", .number (.posInt 1))]) 2
  let second : LedgerEnvelope := ⟨0, 1700000000000, .submitted new⟩
  have reads : second.event.Readable Json.Value.Plain := ⟨⟨trivial, trivial⟩, rfl⟩
  have file : Sample.retried.after.file =
      Sample.unacknowledged.after.file ++ LedgerState.record serde second := rfl
  have read := read_record serde_faithful reads Sample.unacknowledged_ended
    Sample.unacknowledged_read rfl
  refine ⟨?_, ⟨_, rfl⟩, ⟨_, rfl⟩,
    ⟨Sample.retried.after.file, 1, Sample.storedTasks.insert ⟨"task_2"⟩ new,
      indexOf (Sample.storedTasks.insert ⟨"task_2"⟩ new)⟩, ?_, ?_⟩
  · have failed : Sample.empty.perform serde Sample.first Sample.unsynced =
        (Sample.unacknowledged.reply, Sample.unacknowledged.after) := rfl
    have retried : Sample.unacknowledged.after.perform serde Sample.again Sample.hosts =
        (Sample.retried.reply, Sample.retried.after) := rfl
    refine .call (.call (.create rfl) failed trivial ⟨trivial, trivial⟩ ?_) retried trivial
      ⟨trivial, trivial⟩ ?_
    · intro _ _ _ none
      cases none
    · intro id given entry member
      cases given
      cases List.mem_singleton.mp member
      decide
  · rw [openFile, file, read]
    rfl
  · refine ⟨.submitted ⟨"task_1"⟩ "first" (.object [("work", .number (.posInt 1))]) 1, new,
      ?_, ?_, rfl, rfl⟩
    · rw [getElem?_insert, if_neg (by decide), Sample.storedTasks, getElem?_insert, if_pos rfl]
    · rw [getElem?_insert, if_pos rfl]

end Results

end Nausicaa.TaskLedger
