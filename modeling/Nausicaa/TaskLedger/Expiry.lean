import Nausicaa.TaskLedger.Runs

/-! # Expired leases

`recover_expired` and the calls of the workers look at the same deadline: what one of them refuses at
a time the other one ends at that time (`CleanRuns.recoversExpired`), and a task that was ended so is
never claimed again. -/

namespace Nausicaa.TaskLedger

/-- What `require_lease` answers when the lease has expired. -/
def expiredLease (taskId : TaskId) : LedgerError := .invalidLease taskId "lease has expired"

section Expiry

variable {codec : Codec} {readable : Json.Value → Prop} {history later : List Entry}
variable {state after : LedgerState} {request : Request} {hosts : Nat → Host}
variable {taskId : TaskId} {task : TaskRecord} {lease : TaskLease} {token : LeaseToken}
variable {nowUnixMs : Nat}

/-! ## Workers -/

theorem requireLease_current (running : task.status = .running) (held : task.lease = some lease)
    (current : task.leaseToken = some token) (nowUnixMs : Nat) :
    LedgerState.requireLease task token nowUnixMs =
      if lease.expiresAtUnixMs ≤ nowUnixMs then .error (expiredLease task.id) else .ok lease := by
  rw [TaskRecord.leaseToken, held] at current
  cases current
  simp [LedgerState.requireLease, running, held, expiredLease]

theorem applyEvent_refused {tasks : Tasks} {event : LedgerEvent} {eventTime : Nat}
    {error : LedgerError} (refused : applyEvent tasks event eventTime = .error error) :
    error = .unknownTask event.taskId := by
  cases found : tasks[event.taskId]? with
  | some task =>
    rw [applyEvent_found found] at refused
    cases refused
  | none =>
    cases event with
    | submitted _ => cases refused
    | _ =>
      simp only [applyEvent, found] at refused
      cases refused
      rfl

/-- An append is never refused for a lease. -/
theorem appendTo_refused {event : LedgerEvent} {host : Host} {error : LedgerError}
    (refused : state.appendTo codec taskId event host = (.error error, after)) :
    error ≠ expiredLease taskId := by
  rw [LedgerState.appendTo] at refused
  split at refused
  next reason middle appended =>
    cases refused
    rw [LedgerState.appendLocked] at appended
    split at appended
    next fault failed =>
      cases appended
      simp [expiredLease]
    next =>
      dsimp only at appended
      split at appended
      next error' applied =>
        cases appended
        rw [applyEvent_refused applied]
        simp [expiredLease]
      next => cases appended
  next middle appended =>
    split at refused
    next => cases refused
    next =>
      cases refused
      simp [expiredLease]

/-- A worker's call with the current token is refused as late exactly from the deadline on. -/
theorem late_iff (keyed : Keyed state.tasks) (found : state.tasks[taskId]? = some task)
    (running : task.status = .running) (held : task.lease = some lease)
    (current : task.leaseToken = some token)
    (asks : request.lease = some (taskId, token, nowUnixMs)) :
    (state.perform codec request hosts).1 = .error (expiredLease taskId) ↔
      lease.expiresAtUnixMs ≤ nowUnixMs := by
  have checked := requireLease_current running held current nowUnixMs
  rw [keyed taskId task found] at checked
  have answered : ∀ event : LedgerEvent,
      (answer Reply.task (state.appendTo codec taskId event (hosts 0))).1 ≠
        .error (expiredLease taskId) := by
    intro event refused
    cases outcome : state.appendTo codec taskId event (hosts 0) with
    | mk result after =>
      rw [outcome] at refused
      cases result with
      | ok task => cases refused
      | error error =>
        cases refused
        exact appendTo_refused outcome rfl
  by_cases late : lease.expiresAtUnixMs ≤ nowUnixMs
  · rw [if_pos late] at checked
    refine iff_of_true ?_ late
    cases request with
    | heartbeat _ _ _ expiresAtUnixMs =>
      cases asks
      simp [LedgerState.perform, LedgerState.heartbeat, LedgerState.requireTask, found, checked,
        answer]
    | succeed _ _ _ result =>
      cases asks
      simp [LedgerState.perform, LedgerState.succeed, LedgerState.finish, LedgerState.requireTask,
        found, checked, answer]
    | fail _ _ _ error =>
      cases asks
      simp [LedgerState.perform, LedgerState.fail, LedgerState.finish, LedgerState.requireTask,
        found, checked, answer]
    | _ => cases asks
  · rw [if_neg late] at checked
    refine iff_of_false ?_ late
    cases request with
    | heartbeat _ _ _ expiresAtUnixMs =>
      cases asks
      simp only [LedgerState.perform, LedgerState.heartbeat, LedgerState.requireTask, found, checked]
      split
      · -- The heartbeat does not extend the lease, which is another reason.
        simp [answer, expiredLease]
      · exact answered _
    | succeed _ _ _ result =>
      cases asks
      simp only [LedgerState.perform, LedgerState.succeed, LedgerState.finish,
        LedgerState.requireTask, found, checked]
      exact answered _
    | fail _ _ _ error =>
      cases asks
      simp only [LedgerState.perform, LedgerState.fail, LedgerState.finish,
        LedgerState.requireTask, found, checked]
      exact answered _
    | _ => cases asks

/-! ## Recovery -/

theorem mem_expired_iff (keyed : Keyed state.tasks) :
    taskId ∈ LedgerState.expired state.tasks nowUnixMs ↔ ∃ task, state.tasks[taskId]? = some task ∧
      task.status = .running ∧ ∃ lease ∈ task.lease, lease.expiresAtUnixMs ≤ nowUnixMs := by
  refine ⟨LedgerState.mem_expired keyed, ?_⟩
  rintro ⟨task, found, running, late⟩
  have own := keyed taskId task found
  refine List.mem_map.mpr ⟨task, List.mem_filter.mpr ⟨?_, ?_⟩, own⟩
  · rw [mem_values keyed, own]
    exact found
  · exact decide_eq_true ⟨running, late⟩

/-- The records that come back are those of the tasks. -/
theorem markUnknown_ids {taskIds : List TaskId} {recovered : List TaskRecord}
    (keyed : Keyed state.tasks)
    (marked : LedgerState.markUnknown codec state taskIds hosts = (.ok recovered, after)) :
    recovered.map TaskRecord.id = taskIds := by
  induction taskIds generalizing state hosts recovered with
  | nil =>
    cases marked
    rfl
  | cons taskId taskIds ih =>
    rw [LedgerState.markUnknown, LedgerState.appendTo] at marked
    cases outcome : state.appendLocked codec
        (.markedUnknown taskId "worker lease expired; completion cannot be determined")
        (hosts 0) with
    | mk appended middle =>
      rw [outcome] at marked
      cases appended with
      | error error => cases marked
      | ok done =>
        have keyed' := (LedgerState.appendLocked_ok outcome).keyed keyed
        cases left : middle.tasks[taskId]? with
        | none => simp [left] at marked
        | some task =>
          simp only [left] at marked
          cases rest : LedgerState.markUnknown codec middle taskIds fun index => hosts (index + 1) with
          | mk others last =>
            rw [rest] at marked
            cases others with
            | error error => cases marked
            | ok recovered =>
              cases marked
              rw [List.map_cons, ih keyed' rest, keyed' taskId task left]

/-- Where no write fails, every task is marked. -/
theorem Marks.all {events : List LedgerEvent} {error : Option LedgerError}
    (marks : Marks codec nowUnixMs hosts state events error after)
    (written : ∀ index, (hosts index).fault = none)
    (distinct : (events.map LedgerEvent.taskId).Nodup) :
    error = none ∧ ∀ id ∈ events.map LedgerEvent.taskId,
      ∃ task, after.tasks[id]? = some task ∧ task.status = .unknown := by
  induction marks with
  | done => exact ⟨rfl, by simp⟩
  | faulted due failed =>
    obtain ⟨fault, present, _⟩ := failed.failed
    rw [written 0] at present
    cases present
  | appended due done marks ih =>
    rw [List.map_cons, List.nodup_cons] at distinct
    obtain ⟨none, others⟩ := ih (fun index => written (index + 1)) distinct.2
    refine ⟨none, ?_⟩
    intro id member
    obtain rfl | member := List.mem_cons.mp member
    · rw [marks.others distinct.1]
      cases due with
      | recoverExpired found running late =>
        obtain ⟨_, same, _⟩ | ⟨old, _, _, changed⟩ := done.task (.recoverExpired found running late)
        · cases same
        · exact ⟨_, changed, rfl⟩
    · exact others id member

/-- What a recovery at a time does: it ends the running tasks whose workers come too late. -/
structure Recovers (codec : Codec) (state : LedgerState) (nowUnixMs : Nat)
    (recovered : List TaskRecord) (after : LedgerState) : Prop where
  once : (recovered.map TaskRecord.id).Nodup
  running : ∀ task ∈ recovered, ∃ old token, state.tasks[task.id]? = some old ∧
    old.status = .running ∧ old.leaseToken = some token
  ended : ∀ task ∈ recovered, after.tasks[task.id]? = some task ∧ task.status = .unknown
  late : ∀ (id : TaskId) (task : TaskRecord) (token : LeaseToken), state.tasks[id]? = some task →
    task.status = .running → task.leaseToken = some token →
    ∀ request hosts, request.lease = some (id, token, nowUnixMs) →
      ((state.perform codec request hosts).1 = .error (expiredLease id) ↔
        id ∈ recovered.map TaskRecord.id)
  others : ∀ id ∉ recovered.map TaskRecord.id, after.tasks[id]? = state.tasks[id]?
  left : ∀ (id : TaskId) (task : TaskRecord) (lease : TaskLease), after.tasks[id]? = some task →
    task.status = .running → task.lease = some lease → nowUnixMs < lease.expiresAtUnixMs
  again : ∀ earlier ≤ nowUnixMs, ∀ hosts,
    after.perform codec (.recoverExpired earlier) hosts = (.ok (.recovered []), after)

theorem recoverExpired_recovers (consistent : Consistent codec state)
    (written : ∀ index, (hosts index).fault = none) :
    ∃ recovered after,
      state.perform codec (.recoverExpired nowUnixMs) hosts = (.ok (.recovered recovered), after) ∧
      Recovers codec state nowUnixMs recovered after := by
  have keyed := consistent.keyed
  have distinct := LedgerState.expired_nodup nowUnixMs keyed
  cases marked : LedgerState.markUnknown codec state
      (LedgerState.expired state.tasks nowUnixMs) hosts with
  | mk result after =>
    have overdue := fun taskId => @LedgerState.mem_expired _ nowUnixMs taskId keyed
    obtain ⟨error, marks, replied⟩ := LedgerState.markUnknown_marks keyed distinct overdue marked
    have lost : ((LedgerState.expired state.tasks nowUnixMs).map Request.lost).map
        LedgerEvent.taskId = LedgerState.expired state.tasks nowUnixMs := by
      rw [List.map_map]
      exact List.map_id _
    obtain ⟨rfl, all⟩ := marks.all written (by rwa [lost])
    obtain ⟨_, recovered, rfl, there⟩ | ⟨_, none, _⟩ := replied
    · have ids := markUnknown_ids keyed marked
      have others : ∀ id ∉ recovered.map TaskRecord.id, after.tasks[id]? = state.tasks[id]? := by
        intro id other
        rw [ids] at other
        exact marks.others (by rwa [lost])
      have left : ∀ (id : TaskId) (task : TaskRecord) (lease : TaskLease),
          after.tasks[id]? = some task → task.status = .running → task.lease = some lease →
          nowUnixMs < lease.expiresAtUnixMs := by
        intro id task lease found running held
        by_contra late
        by_cases picked : id ∈ LedgerState.expired state.tasks nowUnixMs
        · obtain ⟨task', found', unknown⟩ := all id (by rwa [lost])
          cases found.symm.trans found'
          rw [running] at unknown
          cases unknown
        · rw [others id (by rwa [ids])] at found
          exact picked ((mem_expired_iff keyed).mpr
            ⟨task, found, running, lease, held, Nat.le_of_not_lt late⟩)
      refine ⟨recovered, after, ?_, ?_, ?_, ?_, ?_, others, left, ?_⟩
      · rw [LedgerState.perform, LedgerState.recoverExpired, marked]
        rfl
      · rwa [ids]
      · intro task member
        have picked : task.id ∈ LedgerState.expired state.tasks nowUnixMs :=
          ids ▸ List.mem_map_of_mem member
        obtain ⟨old, found, running, lease, held, _⟩ := LedgerState.mem_expired keyed picked
        exact ⟨old, _, found, running, by rw [TaskRecord.leaseToken, held]; rfl⟩
      · intro task member
        obtain ⟨task', found, unknown⟩ := all task.id (by
          rw [lost, ← ids]
          exact List.mem_map_of_mem member)
        have same := there task member
        cases same.symm.trans found
        exact ⟨same, unknown⟩
      · intro id task token found running current request hosts' asks
        cases held : task.lease with
        | none => simp [TaskRecord.leaseToken, held] at current
        | some lease =>
          rw [late_iff keyed found running held current asks, ids, mem_expired_iff keyed]
          constructor
          · intro late
            exact ⟨task, found, running, lease, held, late⟩
          · rintro ⟨task', found', _, lease', held', late⟩
            cases found.symm.trans found'
            cases held.symm.trans held'
            exact late
      · intro earlier before hosts'
        have none : LedgerState.expired after.tasks earlier = [] := by
          rw [List.eq_nil_iff_forall_not_mem]
          intro id picked
          obtain ⟨task, found, running, lease, held, late⟩ :=
            LedgerState.mem_expired (marks.keyed keyed) picked
          exact absurd (left id task lease found running held) (by omega)
        rw [LedgerState.perform, LedgerState.recoverExpired, none]
        rfl
    · cases none

/-! ## Afterwards -/

/-- What has ended is never claimed again. -/
theorem Calls.not_granted {earlier : List Entry} {entry : Entry}
    (calls : Calls codec (later ++ entry :: earlier) state)
    (ended : entry.after.hasEnded taskId = true) :
    state.hasEnded taskId = true ∧ ∀ entry' ∈ later, entry'.granted taskId = none := by
  induction later generalizing state with
  | nil =>
    cases calls with
    | cons calls called => exact ⟨ended, by simp⟩
  | cons last later ih =>
    cases calls with
    | cons calls called =>
      obtain ⟨before, silent⟩ := ih calls
      refine ⟨called.hasEnded before, ?_⟩
      intro entry' member
      obtain rfl | member := List.mem_cons.mp member
      · cases called.effect taskId with
        | claimed found waiting _ _ =>
          rw [LedgerState.hasEnded_of_found found, waiting] at before
          cases before
        | same _ granted _ => exact granted
        | submitted _ _ _ _ _ granted _ => exact granted
        | heartbeat _ _ granted _ => exact granted
        | other _ _ _ _ granted _ => exact granted
      · exact silent entry' member

/-- In every state of a run, a recovery at a time ends exactly the running tasks whose workers would
be refused as late at that time, and these are never claimed again. -/
theorem CleanRuns.recoversExpired (faithful : codec.Faithful readable)
    (runs : CleanRuns codec readable history state)
    (written : ∀ index, (hosts index).fault = none) :
    ∃ recovered after,
      state.perform codec (.recoverExpired nowUnixMs) hosts = (.ok (.recovered recovered), after) ∧
      Recovers codec state nowUnixMs recovered after ∧
      ∀ later last, CleanRuns codec readable
        (later ++ ⟨state, .recoverExpired nowUnixMs, .ok (.recovered recovered), after⟩ :: history)
          last →
        ∀ entry ∈ later, ∀ task ∈ recovered, entry.granted task.id = none := by
  obtain ⟨consistent, _⟩ := runs.consistent faithful
  obtain ⟨recovered, after, performed, recovers⟩ := recoverExpired_recovers consistent written
  refine ⟨recovered, after, performed, recovers, ?_⟩
  intro later last runs' entry member task present
  obtain ⟨_, calls, _⟩ := runs'.consistent faithful
  obtain ⟨found, unknown⟩ := recovers.ended task present
  have ended : after.hasEnded task.id = true := by
    rw [LedgerState.hasEnded_of_found found, unknown]
    rfl
  exact (calls.not_granted ended).2 entry member

/-- At its deadline the task of the sample is lost. -/
theorem CleanRuns.recoversExpired_sample : ∃ recovered after,
    Sample.claimed.after.perform serde (.recoverExpired 150) Sample.hosts =
      (.ok (.recovered recovered), after) ∧
    Sample.id ∈ recovered.map TaskRecord.id := by
  have start : CleanRuns serde Json.Value.Plain [] ⟨[], 0, ∅, ∅⟩ := .create rfl
  have first : CleanRuns serde Json.Value.Plain [Sample.submitted] Sample.submitted.after :=
    Sample.runs_entry start ⟨trivial, trivial⟩ (by intro _ _ _ none; cases none)
  have second : CleanRuns serde Json.Value.Plain [Sample.claimed, Sample.submitted]
      Sample.claimed.after :=
    Sample.runs_entry first trivial (by intro _ none; cases none)
  have written : ∀ index, (Sample.hosts index).fault = none := fun _ => rfl
  obtain ⟨recovered, after, performed, recovers, _⟩ :
      ∃ recovered after, Sample.claimed.after.perform serde (.recoverExpired 150) Sample.hosts =
        (.ok (.recovered recovered), after) ∧ _ :=
    CleanRuns.recoversExpired serde_faithful second written
  refine ⟨recovered, after, performed, ?_⟩
  have present : (Sample.claimed.after.tasks[Sample.id]?.map fun task =>
      (task.status, task.leaseToken)) = some (.running, some Sample.token) := by
    decide
  obtain ⟨task, found, shown⟩ := Option.map_eq_some_iff.mp present
  obtain ⟨running, current⟩ := Prod.mk.inj shown
  have refused : (Sample.claimed.after.perform serde (.fail Sample.id Sample.token 150 "late")
      Sample.hosts).1 = .error (expiredLease Sample.id) := by
    decide
  exact (recovers.late Sample.id task Sample.token found running current _ _ rfl).mp refused

end Expiry

end Nausicaa.TaskLedger
