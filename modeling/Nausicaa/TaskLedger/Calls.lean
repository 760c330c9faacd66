import Nausicaa.TaskLedger.Lifecycle

/-! # What a call does

A call of one of the ledger's methods is an append of an event that is due, or one for every
task that a recovery ends, or nothing (`perform_performed`).  An append changes the task of
its event and no other one. -/

namespace Nausicaa.TaskLedger

/-! ## Applying an event -/

section Events

variable {tasks tasks' : Tasks} {event : LedgerEvent} {eventTime : Nat} {task : TaskRecord}
variable {id : TaskId}

theorem getElem?_insert (tasks : Tasks) (key id : TaskId) (task : TaskRecord) :
    (tasks.insert key task)[id]? = if key = id then some task else tasks[id]? := by
  rw [Std.ExtTreeMap.getElem?_insert]
  by_cases same : key = id
  · rw [if_pos same, if_pos (Std.LawfulEqOrd.compare_eq_iff_eq.mpr same)]
  · rw [if_neg same, if_neg fun equal => same (Std.LawfulEqOrd.compare_eq_iff_eq.mp equal)]

theorem applyEvent_found (found : tasks[event.taskId]? = some task) :
    applyEvent tasks event eventTime =
      .ok (tasks.insert event.taskId (event.change eventTime task)) := by
  cases event with
  | submitted task => rfl
  | _ => simp only [applyEvent, found]

theorem applyEvent_ok (applied : applyEvent tasks event eventTime = .ok tasks') :
    ∃ task, tasks' = tasks.insert event.taskId task ∧
      (event = .submitted task ∨
        ∃ old, tasks[event.taskId]? = some old ∧ task = event.change eventTime old) := by
  cases found : tasks[event.taskId]? with
  | some old =>
    rw [applyEvent_found found] at applied
    cases applied
    exact ⟨_, rfl, .inr ⟨old, rfl, rfl⟩⟩
  | none =>
    cases event with
    | submitted task =>
      cases applied
      exact ⟨task, rfl, .inl rfl⟩
    | _ =>
      simp only [applyEvent, found] at applied
      cases applied

/-- Every task is stored under its id. -/
def Keyed (tasks : Tasks) : Prop :=
  ∀ (id : TaskId) (task : TaskRecord), tasks[id]? = some task → task.id = id

theorem Keyed.empty : Keyed ∅ := by
  intro id task found
  simp at found

theorem Keyed.applyEvent (keyed : Keyed tasks)
    (applied : applyEvent tasks event eventTime = .ok tasks') : Keyed tasks' := by
  obtain ⟨task, rfl, made⟩ := applyEvent_ok applied
  have own : task.id = event.taskId := by
    obtain rfl | ⟨old, found, rfl⟩ := made
    · rfl
    · cases event with
      | submitted task => rfl
      | _ => exact keyed _ old found
  intro id found present
  rw [getElem?_insert] at present
  split at present
  next same =>
    cases present
    rw [own, same]
  next other => exact keyed id found present

theorem mem_values (keyed : Keyed tasks) :
    task ∈ LedgerState.values tasks ↔ tasks[task.id]? = some task := by
  simp only [LedgerState.values, List.mem_map, Prod.exists, exists_eq_right,
    Std.ExtTreeMap.mem_toList_iff_getElem?_eq_some]
  constructor
  · intro present
    obtain ⟨id, found⟩ := present
    rwa [keyed id task found]
  · intro found
    exact ⟨task.id, found⟩

end Events

theorem firstCreated_mem {tasks : List TaskRecord} {task : TaskRecord}
    (first : LedgerState.firstCreated tasks = some task) : task ∈ tasks := by
  induction tasks generalizing task with
  | nil => cases first
  | cons head rest ih =>
    rw [LedgerState.firstCreated] at first
    split at first
    next none =>
      cases first
      exact List.mem_cons_self
    next other found =>
      split at first
      next earlier =>
        cases first
        exact List.mem_cons_of_mem _ (ih found)
      next later =>
        cases first
        exact List.mem_cons_self

namespace LedgerState

/-! ## Appending -/

section Appending

variable {codec : Codec} {state state' : LedgerState} {event : LedgerEvent} {host : Host}
variable {task : TaskRecord} {error : LedgerError}

/-- What a successful append does. -/
structure Appended (codec : Codec) (state : LedgerState) (event : LedgerEvent) (host : Host)
    (state' : LedgerState) : Prop where
  written : host.fault = none
  file : state'.file = state.file ++ record codec (state.envelope event host)
  nextSequence : state'.nextSequence = state.nextSequence + 1
  tasks : applyEvent state.tasks event host.now = .ok state'.tasks
  idempotency : state'.idempotency = event.index state.idempotency

/-- What a failing write does. -/
structure Faulted (codec : Codec) (state : LedgerState) (event : LedgerEvent) (host : Host)
    (error : LedgerError) (state' : LedgerState) : Prop where
  failed : ∃ fault, host.fault = some fault ∧ error = .io fault.message ∧
    state' = { state with
      file := state.file ++ (record codec (state.envelope event host)).take fault.written }

theorem Faulted.tasks (failed : Faulted codec state event host error state') :
    state'.tasks = state.tasks := by
  obtain ⟨_, _, _, rfl⟩ := failed
  rfl

theorem appendLocked_ok (appended : state.appendLocked codec event host = (.ok (), state')) :
    Appended codec state event host state' := by
  rw [appendLocked] at appended
  split at appended
  next fault failed => cases appended
  next written =>
    dsimp only at appended
    split at appended
    next error refused => cases appended
    next tasks applied =>
      cases appended
      exact ⟨written, rfl, rfl, applied, rfl⟩

/-- An event that can be applied is refused by a failing write only. -/
theorem appendLocked_error (applies : ∃ tasks, applyEvent state.tasks event host.now = .ok tasks)
    (refused : state.appendLocked codec event host = (.error error, state')) :
    Faulted codec state event host error state' := by
  obtain ⟨tasks, applies⟩ := applies
  rw [appendLocked] at refused
  split at refused
  next fault failed =>
    cases refused
    exact ⟨fault, failed, rfl, rfl⟩
  next written =>
    dsimp only [envelope] at refused
    rw [applies] at refused
    cases refused

end Appending

end LedgerState

/-! ## Events that are due -/

namespace Request

/-- The event of a request that needs a lease. -/
def leased (state : LedgerState) (taskId : TaskId) (token : LeaseToken) (nowUnixMs : Nat)
    (event : TaskLease → List LedgerEvent) : List LedgerEvent :=
  match state.requireTask taskId with
  | .error _ => []
  | .ok task =>
    match LedgerState.requireLease task token nowUnixMs with
    | .error _ => []
    | .ok lease => event lease

/-- What `recover_expired` appends for a task. -/
def lost (taskId : TaskId) : LedgerEvent :=
  .markedUnknown taskId "worker lease expired; completion cannot be determined"

/-- The events that a request appends, one after the other until an append fails. -/
def events (state : LedgerState) : Request → List LedgerEvent
  | .submit idempotencyKey payload id now =>
    match state.idempotency[idempotencyKey]?.bind fun taskId => state.tasks[taskId]? with
    | some _ => []
    | none => [.submitted (.submitted id idempotencyKey payload now)]
  | .claimNext workerId nowUnixMs leaseDurationMs =>
    match LedgerState.firstCreated
      ((LedgerState.values state.tasks).filter fun task => task.status = .pending) with
    | none => []
    | some task =>
      [.claimed task.id
        ⟨workerId, min (nowUnixMs + max leaseDurationMs 1) LedgerState.maxUnixMs⟩]
  | .heartbeat taskId token nowUnixMs expiresAtUnixMs =>
    leased state taskId token nowUnixMs fun lease =>
      if expiresAtUnixMs ≤ lease.expiresAtUnixMs then [] else [.heartbeat taskId expiresAtUnixMs]
  | .succeed taskId token nowUnixMs result =>
    leased state taskId token nowUnixMs fun _ => [.succeeded taskId result]
  | .fail taskId token nowUnixMs error =>
    leased state taskId token nowUnixMs fun _ => [.failed taskId error]
  | .cancel taskId reason =>
    match state.requireTask taskId with
    | .error _ => []
    | .ok task => if task.status.isTerminal then [] else [.cancelled taskId reason]
  | .recoverExpired nowUnixMs => (LedgerState.expired state.tasks nowUnixMs).map lost
  | .acknowledgeDelivery taskId =>
    match state.requireTask taskId with
    | .error _ => []
    | .ok task => if task.delivery ≠ .pending then [] else [.deliveryAcknowledged taskId]
  | .get _ | .list => []

end Request

/-- What a method has checked when it appends an event. -/
inductive Due (state : LedgerState) : Request → LedgerEvent → Prop where
  | submit {idempotencyKey : String} {payload : Json.Value} {id : TaskId} {now : Nat} :
    (state.idempotency[idempotencyKey]?.bind fun taskId => state.tasks[taskId]?) = none →
    Due state (.submit idempotencyKey payload id now)
      (.submitted (.submitted id idempotencyKey payload now))
  | claimNext {workerId : String} {nowUnixMs leaseDurationMs : Nat} {task : TaskRecord} :
    LedgerState.firstCreated
      ((LedgerState.values state.tasks).filter fun task => task.status = .pending) =
        some task →
    state.tasks[task.id]? = some task → task.status = .pending →
    Due state (.claimNext workerId nowUnixMs leaseDurationMs)
      (.claimed task.id
        ⟨workerId, min (nowUnixMs + max leaseDurationMs 1) LedgerState.maxUnixMs⟩)
  | heartbeat {taskId : TaskId} {token : LeaseToken} {nowUnixMs expiresAtUnixMs : Nat}
      {task : TaskRecord} {lease : TaskLease} :
    state.tasks[taskId]? = some task → LedgerState.requireLease task token nowUnixMs = .ok lease →
    lease.expiresAtUnixMs < expiresAtUnixMs →
    Due state (.heartbeat taskId token nowUnixMs expiresAtUnixMs)
      (.heartbeat taskId expiresAtUnixMs)
  | succeed {taskId : TaskId} {token : LeaseToken} {nowUnixMs : Nat} {result : Json.Value}
      {task : TaskRecord} {lease : TaskLease} :
    state.tasks[taskId]? = some task → LedgerState.requireLease task token nowUnixMs = .ok lease →
    Due state (.succeed taskId token nowUnixMs result) (.succeeded taskId result)
  | fail {taskId : TaskId} {token : LeaseToken} {nowUnixMs : Nat} {error : String}
      {task : TaskRecord} {lease : TaskLease} :
    state.tasks[taskId]? = some task → LedgerState.requireLease task token nowUnixMs = .ok lease →
    Due state (.fail taskId token nowUnixMs error) (.failed taskId error)
  | cancel {taskId : TaskId} {reason : String} {task : TaskRecord} :
    state.tasks[taskId]? = some task → task.status.isTerminal = false →
    Due state (.cancel taskId reason) (.cancelled taskId reason)
  | recoverExpired {nowUnixMs : Nat} {taskId : TaskId} {task : TaskRecord} :
    state.tasks[taskId]? = some task → task.status = .running →
    (∃ lease ∈ task.lease, lease.expiresAtUnixMs ≤ nowUnixMs) →
    Due state (.recoverExpired nowUnixMs) (Request.lost taskId)
  | acknowledgeDelivery {taskId : TaskId} {task : TaskRecord} :
    state.tasks[taskId]? = some task → task.delivery = .pending →
    Due state (.acknowledgeDelivery taskId) (.deliveryAcknowledged taskId)

theorem requireLease_ok {task : TaskRecord} {token : LeaseToken} {nowUnixMs : Nat}
    {lease : TaskLease} (granted : LedgerState.requireLease task token nowUnixMs = .ok lease) :
    task.status = .running ∧ task.lease = some lease ∧ task.leaseToken = some token ∧
      nowUnixMs < lease.expiresAtUnixMs := by
  rw [LedgerState.requireLease] at granted
  split at granted
  next => cases granted
  next running =>
    cases held : task.lease with
    | none => simp only [held] at granted; cases granted
    | some lease' =>
      simp only [held] at granted
      split at granted
      next => cases granted
      next own =>
        split at granted
        next => cases granted
        next unexpired =>
          cases granted
          simp only [not_or, not_not] at running own
          refine ⟨running, rfl, ?_, Nat.lt_of_not_le unexpired⟩
          rw [TaskRecord.leaseToken, held]
          obtain ⟨worker, attempt⟩ := own
          cases token
          simp only at worker attempt
          rw [worker, attempt]
          rfl

variable {state : LedgerState} {request : Request} {event : LedgerEvent}

/-- An event that is due is a new task or fits the task that it is about. -/
theorem Due.fits (due : Due state request event) :
    (∃ idempotencyKey payload id now, request = .submit idempotencyKey payload id now ∧
      event = .submitted (.submitted id idempotencyKey payload now) ∧
      (state.idempotency[idempotencyKey]?.bind fun taskId => state.tasks[taskId]?) = none) ∨
    ∃ task, state.tasks[event.taskId]? = some task ∧ event.Fits task := by
  cases due with
  | submit new => exact .inl ⟨_, _, _, _, rfl, rfl, new⟩
  | claimNext first found waiting => exact .inr ⟨_, found, .claimed waiting⟩
  | heartbeat found granted later =>
    obtain ⟨running, held, _⟩ := requireLease_ok granted
    exact .inr ⟨_, found, .heartbeat running held later⟩
  | succeed found granted => exact .inr ⟨_, found, .succeeded (requireLease_ok granted).1⟩
  | fail found granted => exact .inr ⟨_, found, .failed (requireLease_ok granted).1⟩
  | cancel found unfinished => exact .inr ⟨_, found, .cancelled unfinished⟩
  | recoverExpired found running => exact .inr ⟨_, found, .markedUnknown running⟩
  | acknowledgeDelivery found ready => exact .inr ⟨_, found, .deliveryAcknowledged ready⟩

theorem Due.applies (due : Due state request event) (eventTime : Nat) :
    ∃ tasks, applyEvent state.tasks event eventTime = .ok tasks := by
  obtain ⟨_, _, _, _, _, rfl, _⟩ | ⟨task, found, _⟩ := due.fits
  · exact ⟨_, rfl⟩
  · exact ⟨_, applyEvent_found found⟩

/-- Apart from recovery, a request appends nothing but the event that is due. -/
theorem Due.events (due : Due state request event) :
    (∃ nowUnixMs, request = .recoverExpired nowUnixMs) ∨ request.events state = [event] := by
  cases due with
  | submit new => exact .inr (by simp only [Request.events, new])
  | claimNext first found waiting => exact .inr (by simp only [Request.events, first])
  | heartbeat found granted later =>
    refine .inr ?_
    simp only [Request.events, Request.leased, LedgerState.requireTask, found, granted,
      if_neg (Nat.not_le_of_lt later)]
  | succeed found granted =>
    exact .inr (by simp only [Request.events, Request.leased, LedgerState.requireTask, found, granted])
  | fail found granted =>
    exact .inr (by simp only [Request.events, Request.leased, LedgerState.requireTask, found, granted])
  | cancel found unfinished =>
    exact .inr (by simp [Request.events, LedgerState.requireTask, found, unfinished])
  | recoverExpired found running late => exact .inl ⟨_, rfl⟩
  | acknowledgeDelivery found ready =>
    exact .inr (by simp [Request.events, LedgerState.requireTask, found, ready])

/-! ## What is replied -/

/-- The reply of a method to its own append, which left the task. -/
def LedgerEvent.reply (event : LedgerEvent) (task : TaskRecord) : Reply :=
  match event with
  | .submitted task => .submission ⟨task, true⟩
  | .claimed _ _ => .claim (some task)
  | _ => .task task

/-- The replies that come without an append. -/
inductive Quiet (state : LedgerState) : Request → Except LedgerError Reply → Prop where
  | refused {request : Request} (error : LedgerError) : Quiet state request (.error error)
  | existing {idempotencyKey : String} {payload : Json.Value} {id taskId : TaskId} {now : Nat}
      {task : TaskRecord} :
    state.idempotency[idempotencyKey]? = some taskId → state.tasks[taskId]? = some task →
    Quiet state (.submit idempotencyKey payload id now) (.ok (.submission ⟨task, false⟩))
  | noneWaiting {workerId : String} {nowUnixMs leaseDurationMs : Nat} :
    Quiet state (.claimNext workerId nowUnixMs leaseDurationMs) (.ok (.claim none))
  | get {taskId : TaskId} : Quiet state (.get taskId) (.ok (.found state.tasks[taskId]?))
  | list : Quiet state .list (.ok (.listed state.list))

/-- The appends of `recover_expired`, up to the one that fails. -/
inductive Marks (codec : Codec) (nowUnixMs : Nat) :
    (Nat → Host) → LedgerState → List LedgerEvent → Option LedgerError → LedgerState → Prop where
  | done {hosts : Nat → Host} {state : LedgerState} :
    Marks codec nowUnixMs hosts state [] none state
  | faulted {hosts : Nat → Host} {state state' : LedgerState} {event : LedgerEvent}
      {events : List LedgerEvent} {error : LedgerError} :
    Due state (.recoverExpired nowUnixMs) event →
    LedgerState.Faulted codec state event (hosts 0) error state' →
    Marks codec nowUnixMs hosts state (event :: events) (some error) state'
  | appended {hosts : Nat → Host} {state state' state'' : LedgerState} {event : LedgerEvent}
      {events : List LedgerEvent} {error : Option LedgerError} :
    Due state (.recoverExpired nowUnixMs) event →
    LedgerState.Appended codec state event (hosts 0) state' →
    Marks codec nowUnixMs (fun index => hosts (index + 1)) state' events error state'' →
    Marks codec nowUnixMs hosts state (event :: events) error state''

/-- What a call does: nothing, one append, or the appends of a recovery. -/
inductive Performed (codec : Codec) (hosts : Nat → Host) (state : LedgerState) :
    Request → Except LedgerError Reply → LedgerState → Prop where
  | quiet {request : Request} {reply : Except LedgerError Reply} :
    Quiet state request reply → Performed codec hosts state request reply state
  | appended {request : Request} {event : LedgerEvent} {task : TaskRecord}
      {state' : LedgerState} :
    Due state request event → LedgerState.Appended codec state event (hosts 0) state' →
    state'.tasks[event.taskId]? = some task → request.events state = [event] →
    Performed codec hosts state request (.ok (event.reply task)) state'
  | faulted {request : Request} {event : LedgerEvent} {error : LedgerError}
      {state' : LedgerState} :
    Due state request event → LedgerState.Faulted codec state event (hosts 0) error state' →
    request.events state = [event] →
    Performed codec hosts state request (.error error) state'
  | recovered {nowUnixMs : Nat} {error : Option LedgerError}
      {reply : Except LedgerError Reply} {state' : LedgerState} :
    Marks codec nowUnixMs hosts state (Request.events state (.recoverExpired nowUnixMs)) error
      state' →
    ((Request.events state (.recoverExpired nowUnixMs)).map LedgerEvent.taskId).Nodup →
    ((error = none ∧ ∃ tasks, reply = .ok (.recovered tasks) ∧
        ∀ task ∈ tasks, state'.tasks[task.id]? = some task) ∨
      ∃ error', error = some error' ∧ reply = .error error') →
    Performed codec hosts state (.recoverExpired nowUnixMs) reply state'

namespace LedgerState

section Single

variable {codec : Codec} {hosts : Nat → Host} {reply : Except LedgerError Reply}
variable {state' : LedgerState} {taskId : TaskId}

theorem Appended.left {host : Host} (done : Appended codec state event host state') :
    ∃ task, state'.tasks[event.taskId]? = some task ∧
      (event = .submitted task ∨
        ∃ old, state.tasks[event.taskId]? = some old ∧ task = event.change host.now old) := by
  obtain ⟨task, tasks, made⟩ := applyEvent_ok done.tasks
  refine ⟨task, ?_, made⟩
  rw [tasks, getElem?_insert, if_pos rfl]

theorem Appended.others {host : Host} {id : TaskId}
    (done : Appended codec state event host state') (other : event.taskId ≠ id) :
    state'.tasks[id]? = state.tasks[id]? := by
  obtain ⟨task, tasks, _⟩ := applyEvent_ok done.tasks
  rw [tasks, getElem?_insert, if_neg other]

theorem Appended.keyed {host : Host} (done : Appended codec state event host state')
    (keyed : Keyed state.tasks) : Keyed state'.tasks := keyed.applyEvent done.tasks

/-- The methods that end with `appendTo`. -/
theorem appendTo_performed (due : Due state request event) (about : event.taskId = taskId)
    (plain : ∀ task, event.reply task = .task task) (single : request.events state = [event])
    (performed : answer .task (state.appendTo codec taskId event (hosts 0)) = (reply, state')) :
    Performed codec hosts state request reply state' := by
  rw [appendTo] at performed
  split at performed
  next error after refused =>
    cases performed
    exact .faulted due (appendLocked_error (due.applies _) refused) single
  next after appended =>
    have done := appendLocked_ok appended
    obtain ⟨task, left, _⟩ := done.left
    rw [← about, left] at performed
    cases performed
    rw [← plain]
    exact .appended due done left single

theorem submit_performed {idempotencyKey : String} {payload : Json.Value} {id : TaskId}
    {now : Nat} (performed : state.perform codec (.submit idempotencyKey payload id now) hosts =
      (reply, state')) :
    Performed codec hosts state (.submit idempotencyKey payload id now) reply state' := by
  rw [perform, submit] at performed
  split at performed
  next task found =>
    cases performed
    obtain ⟨taskId, known, present⟩ := Option.bind_eq_some_iff.mp found
    exact .quiet (.existing known present)
  next new =>
    have due : Due state (.submit idempotencyKey payload id now)
        (.submitted (.submitted id idempotencyKey payload now)) := .submit new
    have single := due.events.resolve_left (by simp)
    dsimp only at performed
    split at performed
    next error after refused =>
      cases performed
      exact .faulted due (appendLocked_error (due.applies _) refused) single
    next after appended =>
      cases performed
      have done := appendLocked_ok appended
      obtain ⟨task, left, _⟩ := done.left
      exact .appended due done left single

theorem claimNext_performed {workerId : String} {nowUnixMs leaseDurationMs : Nat}
    (keyed : Keyed state.tasks)
    (performed : state.perform codec (.claimNext workerId nowUnixMs leaseDurationMs) hosts =
      (reply, state')) :
    Performed codec hosts state (.claimNext workerId nowUnixMs leaseDurationMs) reply state' := by
  rw [perform, claimNext] at performed
  split at performed
  next none =>
    cases performed
    exact .quiet .noneWaiting
  next task first =>
    have waiting := List.mem_filter.mp (firstCreated_mem first)
    have due : Due state (.claimNext workerId nowUnixMs leaseDurationMs) (.claimed task.id
        ⟨workerId, min (nowUnixMs + max leaseDurationMs 1) maxUnixMs⟩) :=
      .claimNext first ((mem_values keyed).mp waiting.1) (of_decide_eq_true waiting.2)
    have single := due.events.resolve_left (by simp)
    dsimp only at performed
    split at performed
    next error after refused =>
      cases performed
      exact .faulted due (appendLocked_error (due.applies _) refused) single
    next after appended =>
      have done := appendLocked_ok appended
      obtain ⟨task', left, _⟩ := done.left
      have left' : after.tasks[task.id]? = some task' := left
      rw [left'] at performed
      cases performed
      exact .appended due done left single

theorem requireTask_ok {task : TaskRecord} (found : state.requireTask taskId = .ok task) :
    state.tasks[taskId]? = some task := by
  rw [requireTask] at found
  split at found
  next task' present =>
    cases found
    exact present
  next => cases found

theorem heartbeat_performed {token : LeaseToken} {nowUnixMs expiresAtUnixMs : Nat}
    (performed : state.perform codec (.heartbeat taskId token nowUnixMs expiresAtUnixMs) hosts =
      (reply, state')) :
    Performed codec hosts state (.heartbeat taskId token nowUnixMs expiresAtUnixMs) reply state' := by
  rw [perform, heartbeat] at performed
  split at performed
  next error missing =>
    cases performed
    exact .quiet (.refused error)
  next task found =>
    split at performed
    next error refused =>
      cases performed
      exact .quiet (.refused error)
    next lease granted =>
      split at performed
      next =>
        cases performed
        exact .quiet (.refused _)
      next later =>
        have due := Due.heartbeat (requireTask_ok found) granted (Nat.lt_of_not_le later)
        exact appendTo_performed due rfl (fun _ => rfl) (due.events.resolve_left (by simp))
          performed

theorem finish_performed {token : LeaseToken} {nowUnixMs : Nat} (event : LedgerEvent)
    (about : event.taskId = taskId)
    (plain : ∀ task, event.reply task = .task task)
    (other : ¬ ∃ nowUnixMs, request = .recoverExpired nowUnixMs)
    (due : ∀ task lease, state.tasks[taskId]? = some task →
      requireLease task token nowUnixMs = .ok lease → Due state request event)
    (performed : answer .task (state.finish codec taskId token nowUnixMs event (hosts 0)) =
      (reply, state')) :
    Performed codec hosts state request reply state' := by
  rw [finish] at performed
  split at performed
  next error missing =>
    cases performed
    exact .quiet (.refused error)
  next task found =>
    split at performed
    next error refused =>
      cases performed
      exact .quiet (.refused error)
    next lease granted =>
      have due := due task lease (requireTask_ok found) granted
      exact appendTo_performed due about plain (due.events.resolve_left other) performed

theorem cancel_performed {reason : String}
    (performed : state.perform codec (.cancel taskId reason) hosts = (reply, state')) :
    Performed codec hosts state (.cancel taskId reason) reply state' := by
  rw [perform, cancel] at performed
  split at performed
  next error missing =>
    cases performed
    exact .quiet (.refused error)
  next task found =>
    split at performed
    next ended =>
      cases performed
      exact .quiet (.refused _)
    next unfinished =>
      have due : Due state (.cancel taskId reason) (.cancelled taskId reason) :=
        .cancel (requireTask_ok found) (by simpa using unfinished)
      exact appendTo_performed due rfl (fun _ => rfl) (due.events.resolve_left (by simp))
          performed

theorem acknowledgeDelivery_performed
    (performed : state.perform codec (.acknowledgeDelivery taskId) hosts = (reply, state')) :
    Performed codec hosts state (.acknowledgeDelivery taskId) reply state' := by
  rw [perform, acknowledgeDelivery] at performed
  split at performed
  next error missing =>
    cases performed
    exact .quiet (.refused error)
  next task found =>
    split at performed
    next =>
      cases performed
      exact .quiet (.refused _)
    next ready =>
      have due := Due.acknowledgeDelivery (requireTask_ok found) (not_not.mp ready)
      exact appendTo_performed due rfl (fun _ => rfl) (due.events.resolve_left (by simp))
          performed

end Single

end LedgerState

/-- A recovery leaves the other tasks as they are. -/
theorem Marks.others {codec : Codec} {nowUnixMs : Nat} {hosts : Nat → Host}
    {state' : LedgerState} {events : List LedgerEvent} {error : Option LedgerError}
    (marks : Marks codec nowUnixMs hosts state events error state') {id : TaskId}
    (other : id ∉ events.map LedgerEvent.taskId) : state'.tasks[id]? = state.tasks[id]? := by
  induction marks with
  | done => rfl
  | faulted due failed => rw [failed.tasks]
  | appended due done _ ih =>
    rw [List.map_cons, List.mem_cons, not_or] at other
    rw [ih other.2, done.others (Ne.symm other.1)]

namespace LedgerState

/-! ## Recovery -/

section Recovery

variable {codec : Codec} {state' : LedgerState}

/-- The tasks that `recover_expired` picks are running under an expired lease. -/
theorem mem_expired {nowUnixMs : Nat} {taskId : TaskId} (keyed : Keyed state.tasks)
    (picked : taskId ∈ expired state.tasks nowUnixMs) :
    ∃ task, state.tasks[taskId]? = some task ∧ task.status = .running ∧
      ∃ lease ∈ task.lease, lease.expiresAtUnixMs ≤ nowUnixMs := by
  obtain ⟨task, member, rfl⟩ := List.mem_map.mp picked
  obtain ⟨present, overdue⟩ := List.mem_filter.mp member
  obtain ⟨running, lease, held, late⟩ := of_decide_eq_true overdue
  exact ⟨task, (mem_values keyed).mp present, running, lease, held, late⟩

theorem values_ids {tasks : Tasks} (keyed : Keyed tasks) :
    (values tasks).map TaskRecord.id = tasks.toList.map Prod.fst := by
  rw [values, List.map_map]
  apply List.map_congr_left
  intro entry member
  exact keyed entry.1 entry.2 (Std.ExtTreeMap.mem_toList_iff_getElem?_eq_some.mp member)

theorem expired_nodup (nowUnixMs : Nat) (keyed : Keyed state.tasks) :
    (expired state.tasks nowUnixMs).Nodup := by
  have distinct : ((values state.tasks).map TaskRecord.id).Nodup := by
    rw [values_ids keyed, List.nodup_iff_pairwise_ne, List.pairwise_map]
    exact Std.ExtTreeMap.distinct_keys_toList.imp fun apart same =>
      apart (Std.LawfulEqOrd.compare_eq_iff_eq.mpr same)
  exact distinct.sublist (List.Sublist.map _ List.filter_sublist)

/-- The loop appends for one task after the other, up to the append that fails. -/
theorem markUnknown_marks {hosts : Nat → Host} {nowUnixMs : Nat} {taskIds : List TaskId}
    {result : Except LedgerError (List TaskRecord)} (keyed : Keyed state.tasks)
    (distinct : taskIds.Nodup)
    (overdue : ∀ taskId ∈ taskIds, ∃ task, state.tasks[taskId]? = some task ∧
      task.status = .running ∧ ∃ lease ∈ task.lease, lease.expiresAtUnixMs ≤ nowUnixMs)
    (marked : markUnknown codec state taskIds hosts = (result, state')) :
    ∃ error, Marks codec nowUnixMs hosts state (taskIds.map Request.lost) error state' ∧
      ((error = none ∧ ∃ tasks, result = .ok tasks ∧
          ∀ task ∈ tasks, state'.tasks[task.id]? = some task) ∨
        ∃ error', error = some error' ∧ result = .error error') := by
  induction taskIds generalizing state hosts result state' with
  | nil =>
    cases marked
    exact ⟨none, .done, .inl ⟨rfl, [], rfl, by simp⟩⟩
  | cons taskId rest ih =>
    obtain ⟨task, found, running, late⟩ := overdue taskId List.mem_cons_self
    rw [List.nodup_cons] at distinct
    rw [markUnknown, appendTo] at marked
    have due : Due state (.recoverExpired nowUnixMs) (Request.lost taskId) :=
      .recoverExpired found running late
    cases outcome : state.appendLocked codec (Request.lost taskId) (hosts 0) with
    | mk appended after =>
      rw [Request.lost] at outcome
      cases appended with
      | error error =>
        rw [outcome] at marked
        cases marked
        exact ⟨some error, .faulted due (appendLocked_error (due.applies _) outcome),
          .inr ⟨error, rfl, rfl⟩⟩
      | ok _ =>
        have done := appendLocked_ok outcome
        obtain ⟨task', left, _⟩ := done.left
        have left' : after.tasks[taskId]? = some task' := left
        have own : task'.id = taskId := done.keyed keyed _ _ left
        have kept : ∀ other ∈ rest, ∃ task, after.tasks[other]? = some task ∧
            task.status = .running ∧ ∃ lease ∈ task.lease, lease.expiresAtUnixMs ≤ nowUnixMs := by
          intro other member
          have apart : taskId ≠ other := fun same => distinct.1 (same ▸ member)
          rw [done.others apart]
          exact overdue other (List.mem_cons_of_mem _ member)
        simp only [outcome, left'] at marked
        cases others : markUnknown codec after rest (fun index => hosts (index + 1)) with
        | mk result' last =>
          rw [others] at marked
          obtain ⟨error, marks, ended⟩ := ih (done.keyed keyed) distinct.2 kept others
          have chain := Marks.appended due done marks
          have apart : taskId ∉ (rest.map Request.lost).map LedgerEvent.taskId := by
            rw [List.map_map]
            simpa [Function.comp_def, Request.lost, LedgerEvent.taskId] using distinct.1
          obtain ⟨none, tasks, rfl, there⟩ | ⟨error', rfl, rfl⟩ := ended
          · cases marked
            refine ⟨error, chain, .inl ⟨none, _, rfl, ?_⟩⟩
            intro task member
            cases List.mem_cons.mp member with
            | inl first => rw [first, own, marks.others apart, left']
            | inr later => exact there task later
          · cases marked
            exact ⟨some error', chain, .inr ⟨error', rfl, rfl⟩⟩

end Recovery

/-- Every call is some appends of due events. -/
theorem perform_performed {codec : Codec} {hosts : Nat → Host}
    {reply : Except LedgerError Reply} {state' : LedgerState} (keyed : Keyed state.tasks)
    (performed : state.perform codec request hosts = (reply, state')) :
    Performed codec hosts state request reply state' := by
  cases request with
  | submit idempotencyKey payload id now => exact submit_performed performed
  | claimNext workerId nowUnixMs leaseDurationMs => exact claimNext_performed keyed performed
  | heartbeat taskId token nowUnixMs expiresAtUnixMs => exact heartbeat_performed performed
  | succeed taskId token nowUnixMs result =>
    exact finish_performed (.succeeded taskId result) rfl (fun _ => rfl) (by simp)
      (fun _ _ found granted => .succeed found granted) performed
  | fail taskId token nowUnixMs error =>
    exact finish_performed (.failed taskId error) rfl (fun _ => rfl) (by simp)
      (fun _ _ found granted => .fail found granted) performed
  | cancel taskId reason => exact cancel_performed performed
  | recoverExpired nowUnixMs =>
    cases marked : markUnknown codec state (expired state.tasks nowUnixMs) hosts with
    | mk result after =>
      have distinct : (expired state.tasks nowUnixMs).Nodup := expired_nodup nowUnixMs keyed
      obtain ⟨error, marks, ended⟩ := markUnknown_marks keyed distinct
        (fun taskId picked => mem_expired keyed picked) marked
      rw [perform, recoverExpired, marked] at performed
      have own : ((Request.events state (.recoverExpired nowUnixMs)).map
          LedgerEvent.taskId).Nodup := by
        rw [Request.events, List.map_map]
        simpa [Function.comp_def, Request.lost, LedgerEvent.taskId] using distinct
      obtain ⟨rfl, tasks, rfl, there⟩ | ⟨error', rfl, rfl⟩ := ended
      · cases performed
        exact .recovered marks own (.inl ⟨rfl, tasks, rfl, there⟩)
      · cases performed
        exact .recovered marks own (.inr ⟨error', rfl, rfl⟩)
  | acknowledgeDelivery taskId => exact acknowledgeDelivery_performed performed
  | get taskId =>
    cases performed
    exact .quiet .get
  | list =>
    cases performed
    exact .quiet .list

end LedgerState

end Nausicaa.TaskLedger
