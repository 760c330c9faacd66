import Nausicaa.TaskLedger.Reopening

/-! # What every call keeps

The invariant of a ledger whose failing writes leave nothing in the file: its tasks show a
life each, its index knows their keys, and its file replays to them (`Consistent`).  A call
moves each task on by at most one event (`Performed.evolves`). -/

namespace Nausicaa.TaskLedger

/-- Each task moves on, and none is lost. -/
def Evolves (tasks tasks' : Tasks) : Prop :=
  ∀ (id : TaskId) (task : TaskRecord), tasks[id]? = some task →
    ∃ task', tasks'[id]? = some task' ∧ TaskRecord.Steps task task'

theorem Evolves.refl (tasks : Tasks) : Evolves tasks tasks :=
  fun _ task found => ⟨task, found, .refl⟩

theorem Evolves.trans {tasks tasks' tasks'' : Tasks} (first : Evolves tasks tasks')
    (second : Evolves tasks' tasks'') : Evolves tasks tasks'' := by
  intro id task found
  obtain ⟨task', found', steps⟩ := first id task found
  obtain ⟨task'', found'', steps'⟩ := second id task' found'
  exact ⟨task'', found'', steps.trans steps'⟩

/-- The values that a request brings can be read back. -/
def Request.Readable (readable : Json.Value → Prop) : Request → Prop
  | .submit _ payload _ _ => readable payload
  | .succeed _ _ _ result => readable result
  | _ => True

/-- The id that `TaskId::new` gives for the request. -/
def Request.newId : Request → Option TaskId
  | .submit _ _ id _ => some id
  | _ => none

/-- Writes fail before they reach the file, if they fail. -/
def Harmless (hosts : Nat → Host) : Prop :=
  ∀ index, ∀ fault ∈ (hosts index).fault, fault.written = 0

section Appending

variable {codec : Codec} {readable : Json.Value → Prop} {state state' : LedgerState}
variable {request : Request} {event : LedgerEvent} {host : Host} {error : LedgerError}

theorem Due.reads (due : Due state request event) (reads : request.Readable readable) :
    event.Readable readable := by
  cases due with
  | submit new => exact ⟨reads, rfl⟩
  | succeed found granted => exact reads
  | claimNext first found waiting => trivial
  | heartbeat found granted later => trivial
  | fail found granted => trivial
  | cancel found unfinished => trivial
  | recoverExpired found running late => trivial
  | acknowledgeDelivery found ready => trivial

theorem LedgerState.Faulted.unchanged
    (failed : LedgerState.Faulted codec state event host error state')
    (harmless : ∀ fault ∈ host.fault, fault.written = 0) : state' = state := by
  obtain ⟨fault, present, _, rfl⟩ := failed
  rw [harmless fault present]
  simp

/-- What an append does to the task of its event. -/
theorem LedgerState.Appended.task (done : LedgerState.Appended codec state event host state')
    (due : Due state request event) :
    (∃ task, event = .submitted task ∧ state'.tasks[event.taskId]? = some task) ∨
      ∃ old, state.tasks[event.taskId]? = some old ∧ event.Fits old ∧
        state'.tasks[event.taskId]? = some (event.change host.now old) := by
  obtain ⟨task, left, made⟩ := done.left
  obtain ⟨key, payload, id, now, _, rfl, _⟩ | ⟨old, found, fits⟩ := due.fits
  · obtain same | ⟨old, found, rfl⟩ := made
    · exact .inl ⟨task, same, left⟩
    · exact .inl ⟨_, rfl, left⟩
  · obtain rfl | ⟨old', found', rfl⟩ := made
    · cases fits
    · cases found.symm.trans found'
      exact .inr ⟨old, found, fits, left⟩

/-- An append moves the tasks that were there on by at most one event. -/
theorem LedgerState.Appended.step (done : LedgerState.Appended codec state event host state')
    (due : Due state request event)
    (fresh : ∀ task, event = .submitted task → state.tasks[task.id]? = none) {id : TaskId}
    {task : TaskRecord} (found : state.tasks[id]? = some task) :
    ∃ task', state'.tasks[id]? = some task' ∧ (task' = task ∨ TaskRecord.Step task task') := by
  by_cases own : event.taskId = id
  · subst own
    obtain ⟨new, rfl, left⟩ | ⟨old, found', fits, left⟩ := done.task due
    · rw [LedgerEvent.taskId, fresh new rfl] at found
      cases found
    · cases found.symm.trans found'
      exact ⟨_, left, .inr ⟨event, host.now, fits, rfl⟩⟩
  · exact ⟨task, (done.others own).trans found, .inl rfl⟩

/-- The index knows the tasks by their keys. -/
structure Indexed (state : LedgerState) : Prop where
  keyed : Keyed state.tasks
  unique : UniqueKeys state.tasks
  indexed : Indexes state.idempotency state.tasks

theorem Indexed.empty : Indexed ⟨[], 0, ∅, ∅⟩ where
  keyed := .empty
  unique := by
    intro id id' task task' found
    simp at found
  indexed := by
    intro key id
    simp

/-- The key of a new task is new. -/
theorem Indexed.newKey (indexed : Indexed state) {key : String}
    (new : (state.idempotency[key]?.bind fun taskId => state.tasks[taskId]?) = none)
    (id : TaskId) (task : TaskRecord) (found : state.tasks[id]? = some task) :
    task.idempotencyKey ≠ key := by
  intro same
  rw [(indexed.indexed key id).mpr ⟨task, found, same⟩, Option.bind_some, found] at new
  cases new

/-- What an append does to the map of the tasks. -/
theorem LedgerState.Appended.insert (done : LedgerState.Appended codec state event host state')
    {old : TaskRecord} (found : state.tasks[event.taskId]? = some old) :
    state'.tasks = state.tasks.insert event.taskId (event.change host.now old) := by
  have applied := done.tasks
  rw [applyEvent_found found] at applied
  exact (Except.ok.inj applied).symm

theorem Indexed.appended (indexed : Indexed state) (due : Due state request event)
    (fresh : ∀ task, event = .submitted task → state.tasks[task.id]? = none)
    (done : LedgerState.Appended codec state event host state') : Indexed state' := by
  obtain ⟨key, payload, id, now, rfl, rfl, new⟩ | ⟨old, found, fits⟩ := due.fits
  · have newKey := indexed.newKey new
    have tasks : state'.tasks = state.tasks.insert id (.submitted id key payload now) :=
      (Except.ok.inj done.tasks).symm
    have index : state'.idempotency = state.idempotency.insert key id := done.idempotency
    refine ⟨done.keyed indexed.keyed, ?_, ?_⟩
    · rw [tasks]
      exact indexed.unique.insert newKey
    · have indexes := @Indexes.insert _ _ (.submitted id key payload now) _ indexed.indexed
        (fresh _ rfl) newKey
      rw [index, tasks]
      exact indexes
  · have tasks := done.insert found
    have index : state'.idempotency = state.idempotency := by
      rw [done.idempotency]
      cases fits <;> rfl
    refine ⟨done.keyed indexed.keyed, ?_, ?_⟩
    · rw [tasks]
      exact indexed.unique.update found fits.sameTask.idempotencyKey
    · rw [index, tasks]
      exact indexed.indexed.update found fits.sameTask.idempotencyKey

/-- The invariant. -/
structure Consistent (codec : Codec) (state : LedgerState) : Prop extends Indexed state where
  lives : ∀ (id : TaskId) (task : TaskRecord), state.tasks[id]? = some task →
    ∃ life, task.Shows life
  replayed : state.Replayed codec

theorem Consistent.empty : Consistent codec ⟨[], 0, ∅, ∅⟩ where
  toIndexed := .empty
  lives := by
    intro id task found
    simp at found
  replayed := .empty

/-- Opening a consistent ledger again changes nothing. -/
theorem Consistent.openFile (consistent : Consistent codec state) :
    openFile codec state.file = .ok state :=
  consistent.replayed.openFile consistent.keyed consistent.unique consistent.indexed

theorem Consistent.appended (consistent : Consistent codec state)
    (faithful : codec.Faithful readable) (reads : request.Readable readable)
    (due : Due state request event)
    (fresh : ∀ task, event = .submitted task → state.tasks[task.id]? = none)
    (done : LedgerState.Appended codec state event host state') : Consistent codec state' := by
  refine ⟨consistent.toIndexed.appended due fresh done, ?_,
    consistent.replayed.appended faithful (due.reads reads) done⟩
  intro id task there
  obtain ⟨_, _, new, _, rfl, rfl, _⟩ | ⟨old, found, fits⟩ := due.fits
  · rw [← Except.ok.inj done.tasks, getElem?_insert] at there
    split at there
    · cases there
      exact ⟨_, TaskRecord.submitted_shows ..⟩
    · exact consistent.lives id task there
  · rw [done.insert found, getElem?_insert] at there
    split at there
    · cases there
      obtain ⟨life, shows⟩ := consistent.lives _ old found
      obtain ⟨life', _, shows'⟩ := fits.change_shows shows
      exact ⟨life', shows'⟩
    · exact consistent.lives id task there

end Appending

/-! ## Calls -/

section Calls

variable {codec : Codec} {readable : Json.Value → Prop} {state state' : LedgerState}
variable {request : Request} {hosts : Nat → Host} {reply : Except LedgerError Reply}
variable {nowUnixMs : Nat} {events : List LedgerEvent} {error : Option LedgerError}

theorem Due.fresh (fresh : ∀ id ∈ request.newId, state.tasks[id]? = none)
    {event : LedgerEvent} (due : Due state request event) (task : TaskRecord)
    (new : event = .submitted task) : state.tasks[task.id]? = none := by
  cases due with
  | submit _ =>
    cases new
    exact fresh _ rfl
  | _ => cases new

theorem Marks.consistent (marks : Marks codec nowUnixMs hosts state events error state')
    (faithful : codec.Faithful readable) (harmless : Harmless hosts)
    (consistent : Consistent codec state) : Consistent codec state' := by
  induction marks with
  | done => exact consistent
  | faulted due failed => exact failed.unchanged (harmless _) ▸ consistent
  | appended due done _ ih =>
    have reads : (Request.recoverExpired nowUnixMs).Readable readable := trivial
    exact ih (fun index => harmless (index + 1)) (consistent.appended faithful reads due (due.fresh fun id none => by cases none)
      done)

/-- What `recover_expired` does to a task. -/
theorem Marks.task (marks : Marks codec nowUnixMs hosts state events error state')
    (distinct : (events.map LedgerEvent.taskId).Nodup)
    (id : TaskId) :
    state'.tasks[id]? = state.tasks[id]? ∨
      ∃ task reason eventTime, state.tasks[id]? = some task ∧ task.status = .running ∧
        (∃ lease ∈ task.lease, lease.expiresAtUnixMs ≤ nowUnixMs) ∧
        state'.tasks[id]? = some (task.terminal .unknown (some reason) eventTime) := by
  induction marks with
  | done => exact .inl rfl
  | faulted due failed => exact .inl (by rw [failed.tasks])
  | @appended _ state middle last event events error due done marks ih =>
    rw [List.map_cons, List.nodup_cons] at distinct
    by_cases own : event.taskId = id
    · -- The other appends are about other tasks.
      subst own
      cases due with
      | recoverExpired found running late =>
        have left := marks.others distinct.1
        obtain ⟨_, same, _⟩ | ⟨old, found', _, changed⟩ :=
          done.task (.recoverExpired found running late)
        · cases same
        · cases found.symm.trans found'
          exact .inr ⟨_, _, _, found, running, late, left.trans changed⟩
    · rw [← done.others own]
      exact ih distinct.2

theorem Marks.keyed (marks : Marks codec nowUnixMs hosts state events error state')
    (keyed : Keyed state.tasks) : Keyed state'.tasks := by
  induction marks with
  | done => exact keyed
  | faulted due failed => exact failed.tasks ▸ keyed
  | appended due done _ ih => exact ih (done.keyed keyed)

theorem Performed.keyed (performed : Performed codec hosts state request reply state')
    (keyed : Keyed state.tasks) : Keyed state'.tasks := by
  cases performed with
  | quiet quiet => exact keyed
  | appended due done left => exact done.keyed keyed
  | faulted due failed => exact failed.tasks ▸ keyed
  | recovered marks distinct replied => exact marks.keyed keyed

theorem Performed.consistent (performed : Performed codec hosts state request reply state')
    (faithful : codec.Faithful readable) (harmless : Harmless hosts)
    (reads : request.Readable readable)
    (fresh : ∀ id ∈ request.newId, state.tasks[id]? = none)
    (consistent : Consistent codec state) : Consistent codec state' := by
  cases performed with
  | quiet _ => exact consistent
  | appended due done _ => exact consistent.appended faithful reads due (due.fresh fresh) done
  | faulted due failed => exact failed.unchanged (harmless 0) ▸ consistent
  | recovered marks distinct _ => exact marks.consistent faithful harmless consistent

/-- A call moves the tasks that were there on by at most one event. -/
theorem Performed.step (performed : Performed codec hosts state request reply state')
    (fresh : ∀ id ∈ request.newId, state.tasks[id]? = none)
    {id : TaskId} {task : TaskRecord} (found : state.tasks[id]? = some task) :
    ∃ task', state'.tasks[id]? = some task' ∧ (task' = task ∨ TaskRecord.Step task task') := by
  cases performed with
  | quiet _ => exact ⟨task, found, .inl rfl⟩
  | appended due done _ => exact done.step due (due.fresh fresh) found
  | faulted due failed =>
    rw [failed.tasks]
    exact ⟨task, found, .inl rfl⟩
  | recovered marks distinct _ =>
    obtain same | ⟨old, reason, eventTime, found', running, _, changed⟩ :=
      marks.task distinct id
    · exact ⟨task, same.trans found, .inl rfl⟩
    · cases found.symm.trans found'
      have fits : LedgerEvent.Fits (.markedUnknown id reason) task := .markedUnknown running
      exact ⟨_, changed, .inr ⟨_, eventTime, fits, rfl⟩⟩

theorem Performed.evolves (performed : Performed codec hosts state request reply state')
    (fresh : ∀ id ∈ request.newId, state.tasks[id]? = none) :
    Evolves state.tasks state'.tasks := by
  intro id task found
  obtain ⟨task', found', rfl | step⟩ := performed.step fresh found
  · exact ⟨task', found', .refl⟩
  · exact ⟨task', found', .single step⟩

/-- A call that is refused leaves the tasks as they are, but `recover_expired` may have ended
some whose leases had expired. -/
theorem Performed.refused (performed : Performed codec hosts state request reply state')
    {error : LedgerError} (refused : reply = .error error) :
    state'.tasks = state.tasks ∨ ∃ nowUnixMs, request = .recoverExpired nowUnixMs ∧
      ∀ id : TaskId, state'.tasks[id]? = state.tasks[id]? ∨
        ∃ task task', state.tasks[id]? = some task ∧ task.status = .running ∧
          (∃ lease ∈ task.lease, lease.expiresAtUnixMs ≤ nowUnixMs) ∧
          state'.tasks[id]? = some task' ∧ task'.status = .unknown := by
  cases performed with
  | quiet _ => exact .inl rfl
  | appended _ _ _ => cases refused
  | faulted _ failed => exact .inl failed.tasks
  | recovered marks distinct _ =>
    refine .inr ⟨_, rfl, ?_⟩
    intro id
    obtain same | ⟨task, _, _, found, running, late, changed⟩ := marks.task distinct id
    · exact .inl same
    · exact .inr ⟨task, _, found, running, late, changed, rfl⟩

/-- New tasks come from `submit` only. -/
theorem Performed.new (performed : Performed codec hosts state request reply state')
    {id : TaskId} (absent : state.tasks[id]? = none)
    {task : TaskRecord} (present : state'.tasks[id]? = some task) : request.newId = some id := by
  cases performed with
  | quiet _ =>
    rw [absent] at present
    cases present
  | @appended _ event _ _ due done _ =>
    by_cases own : event.taskId = id
    · subst own
      obtain ⟨_, _, _, _, rfl, rfl, _⟩ | ⟨old, found, _⟩ := due.fits
      · rfl
      · cases absent.symm.trans found
    · rw [done.others own, absent] at present
      cases present
  | faulted due failed =>
    rw [failed.tasks, absent] at present
    cases present
  | recovered marks distinct _ =>
    obtain same | ⟨task, _, _, found, _⟩ := marks.task distinct id
    · rw [same, absent] at present
      cases present
    · cases absent.symm.trans found

end Calls

end Nausicaa.TaskLedger
