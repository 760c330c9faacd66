import Nausicaa.TaskLedger.Invariant
import Nausicaa.TaskLedger.Serde

/-! # Runs of the ledger

Calls by any number of workers, one after the other under the lock, with reopenings between
them.  Claims are exclusive and results are fenced (`CleanRuns.fenced`), records stay well formed
(`CleanRuns.recordsWellFormed`), and opening the file at any point gives the live ledger
(`CleanRuns.reopens`). -/

namespace Nausicaa.TaskLedger

/-- A call in the life of a ledger. -/
structure Entry where
  before : LedgerState
  request : Request
  reply : Except LedgerError Reply
  after : LedgerState

/-- The life of a ledger from an empty file on, with its calls, the last one first.
`TaskId::new` gives an id that it never gave before. -/
inductive Runs (codec : Codec) (readable : Json.Value → Prop)
    (Allowed : LedgerState → Request → (Nat → Host) → Prop) :
    List Entry → LedgerState → Prop where
  | create {state : LedgerState} :
    openFile codec [] = .ok state → Runs codec readable Allowed [] state
  | call {history : List Entry} {state state' : LedgerState} {request : Request}
      {hosts : Nat → Host} {reply : Except LedgerError Reply} :
    Runs codec readable Allowed history state →
    state.perform codec request hosts = (reply, state') →
    Allowed state request hosts → request.Readable readable →
    (∀ id ∈ request.newId, ∀ entry ∈ history, entry.request.newId ≠ some id) →
    Runs codec readable Allowed (⟨state, request, reply, state'⟩ :: history) state'
  | reopen {history : List Entry} {state state' : LedgerState} :
    Runs codec readable Allowed history state → openFile codec state.file = .ok state' →
    Runs codec readable Allowed history state'

/-- The runs in which an append that fails writes nothing. -/
abbrev CleanRuns (codec : Codec) (readable : Json.Value → Prop) :
    List Entry → LedgerState → Prop :=
  Runs codec readable fun _ _ hosts => Harmless hosts

/-! ## What the calls tell -/

namespace Entry

/-- The task with the id, if the call is a `claim_next` that returned it. -/
def granted (id : TaskId) (entry : Entry) : Option TaskRecord :=
  match entry.reply with
  | .ok (.claim (some task)) => if task.id = id then some task else none
  | _ => none

/-- The new expiry of the task's lease, if the call is a heartbeat that returned `Ok`. -/
def extended (id : TaskId) (entry : Entry) : Option Nat :=
  match entry.request, entry.reply with
  | .heartbeat taskId _ _ expiresAtUnixMs, .ok _ =>
    if taskId = id then some expiresAtUnixMs else none
  | _, _ => none

end Entry

/-- The task is in a terminal state. -/
def LedgerState.hasEnded (state : LedgerState) (id : TaskId) : Bool :=
  (state.tasks[id]?.map fun task => task.status.isTerminal).getD false

/-- The call moves the task to a terminal state. -/
def Entry.ends (id : TaskId) (entry : Entry) : Bool :=
  !entry.before.hasEnded id && entry.after.hasEnded id

/-- The token of the record that `claim_next` returned for the task. -/
def grantedToken (id : TaskId) : List Entry → Option LeaseToken
  | [] => none
  | entry :: earlier =>
    match entry.granted id with
    | some task => task.leaseToken
    | none => grantedToken id earlier

/-- The task's expiry as set by its claim or by the last heartbeat that returned `Ok`. -/
def expiry (id : TaskId) : List Entry → Option Nat
  | [] => none
  | entry :: earlier =>
    match entry.granted id, entry.extended id with
    | some task, _ => task.lease.map TaskLease.expiresAtUnixMs
    | none, some expiresAtUnixMs => some expiresAtUnixMs
    | none, none => expiry id earlier

/-- The task, token and time of a request that needs a lease. -/
def Request.lease : Request → Option (TaskId × LeaseToken × Nat)
  | .heartbeat taskId token nowUnixMs _ | .succeed taskId token nowUnixMs _
  | .fail taskId token nowUnixMs _ => some (taskId, token, nowUnixMs)
  | _ => none

section Runs

variable {codec : Codec} {readable : Json.Value → Prop} {history : List Entry}
variable {state : LedgerState}

/-- What a call does in a ledger that keeps the invariant. -/
structure Called (codec : Codec) (entry : Entry) : Prop where
  consistent : Consistent codec entry.before
  kept : Consistent codec entry.after
  spec : ∃ hosts, Harmless hosts ∧
    (∀ id ∈ entry.request.newId, entry.before.tasks[id]? = none) ∧
    Performed codec hosts entry.before entry.request entry.reply entry.after

/-- A run without its reopenings, which change nothing. -/
inductive Calls (codec : Codec) : List Entry → LedgerState → Prop where
  | nil : Calls codec [] ⟨[], 0, ∅, ∅⟩
  | cons {history : List Entry} {entry : Entry} :
    Calls codec history entry.before → Called codec entry →
    Calls codec (entry :: history) entry.after

/-- The invariant, and the tasks come from the calls of the run. -/
theorem CleanRuns.consistent (runs : CleanRuns codec readable history state)
    (faithful : codec.Faithful readable) :
    Consistent codec state ∧ Calls codec history state ∧
      ∀ (id : TaskId) (task : TaskRecord), state.tasks[id]? = some task →
        ∃ entry ∈ history, entry.request.newId = some id := by
  induction runs with
  | create opened =>
    cases opened
    refine ⟨.empty, .nil, ?_⟩
    intro id task found
    simp [Replay.start] at found
  | @call history state state' request hosts reply runs performed harmless reads new ih =>
    obtain ⟨consistent, calls, known⟩ := ih
    have fresh : ∀ id ∈ request.newId, state.tasks[id]? = none := by
      intro id given
      cases found : state.tasks[id]? with
      | none => rfl
      | some task =>
        obtain ⟨entry, member, same⟩ := known id task found
        exact absurd same (new id given entry member)
    have effect := LedgerState.perform_performed consistent.keyed performed
    have kept := effect.consistent faithful harmless reads fresh consistent
    refine ⟨kept, @Calls.cons _ _ ⟨state, request, reply, state'⟩ calls
      ⟨consistent, kept, hosts, harmless, fresh, effect⟩, ?_⟩
    intro id task found
    cases before : state.tasks[id]? with
    | none => exact ⟨_, List.mem_cons_self, effect.new before found⟩
    | some old =>
      obtain ⟨entry, member, same⟩ := known id old before
      exact ⟨entry, List.mem_cons_of_mem _ member, same⟩
  | reopen runs opened ih =>
    cases ih.1.openFile.symm.trans opened
    exact ih

/-! ## From one call to later ones -/

theorem Called.evolves {entry : Entry} (called : Called codec entry) :
    Evolves entry.before.tasks entry.after.tasks := by
  obtain ⟨hosts, harmless, fresh, performed⟩ := called.spec
  exact performed.evolves fresh

/-- The tasks of a call are there ever after. -/
theorem Calls.evolves (calls : Calls codec history state) {entry : Entry}
    (member : entry ∈ history) :
    Called codec entry ∧ Evolves entry.after.tasks state.tasks := by
  induction calls with
  | nil => cases member
  | cons calls called ih =>
    cases List.mem_cons.mp member with
    | inl last =>
      subst last
      exact ⟨called, .refl _⟩
    | inr earlier =>
      obtain ⟨called', evolves⟩ := ih earlier
      exact ⟨called', evolves.trans called.evolves⟩

/-! ## One task -/

/-- What a call does to one task, and what its reply tells of it. -/
inductive Effect (id : TaskId) (entry : Entry) : Prop where
  | same : entry.after.tasks[id]? = entry.before.tasks[id]? → entry.granted id = none →
    entry.extended id = none → Effect id entry
  | submitted {task : TaskRecord} : entry.before.tasks[id]? = none →
    entry.after.tasks[id]? = some task → task.attempt = 0 → task.lease = none →
    task.status = .pending → entry.granted id = none → entry.extended id = none →
    Effect id entry
  | claimed {old : TaskRecord} {lease : TaskLease} {eventTime : Nat} :
    entry.before.tasks[id]? = some old → old.status = .pending →
    entry.after.tasks[id]? = some (LedgerEvent.change (.claimed id lease) eventTime old) →
    entry.granted id = some (LedgerEvent.change (.claimed id lease) eventTime old) →
    Effect id entry
  | heartbeat {old : TaskRecord} {expiresAtUnixMs eventTime : Nat} :
    entry.before.tasks[id]? = some old →
    entry.after.tasks[id]? =
      some (LedgerEvent.change (.heartbeat id expiresAtUnixMs) eventTime old) →
    entry.granted id = none → entry.extended id = some expiresAtUnixMs → Effect id entry
  | other {old task : TaskRecord} : entry.before.tasks[id]? = some old →
    entry.after.tasks[id]? = some task → task.attempt = old.attempt →
    (task.lease = none ∨ task.lease = old.lease) → entry.granted id = none →
    entry.extended id = none → Effect id entry

theorem Quiet.tells {before after : LedgerState} {request : Request}
    {reply : Except LedgerError Reply} (quiet : Quiet before request reply) (id : TaskId) :
    Entry.granted id ⟨before, request, reply, after⟩ = none ∧
      Entry.extended id ⟨before, request, reply, after⟩ = none := by
  cases quiet with
  | @refused request error => exact ⟨rfl, by cases request <;> rfl⟩
  | existing known present => exact ⟨rfl, rfl⟩
  | noneWaiting => exact ⟨rfl, rfl⟩
  | get => exact ⟨rfl, rfl⟩
  | list => exact ⟨rfl, rfl⟩

/-- An append tells nothing of the tasks that it is not about. -/
theorem Due.tells {before after : LedgerState} {request : Request} {event : LedgerEvent}
    {task : TaskRecord} {id : TaskId} (due : Due before request event)
    (about : task.id = event.taskId) (other : event.taskId ≠ id) :
    Entry.granted id ⟨before, request, .ok (event.reply task), after⟩ = none ∧
      Entry.extended id ⟨before, request, .ok (event.reply task), after⟩ = none := by
  cases due with
  | claimNext first found waiting =>
    have apart : task.id ≠ id := fun same => other (about.symm.trans same)
    exact ⟨if_neg apart, rfl⟩
  | heartbeat found granted later => exact ⟨rfl, if_neg other⟩
  | submit new => exact ⟨rfl, rfl⟩
  | succeed found granted => exact ⟨rfl, rfl⟩
  | fail found granted => exact ⟨rfl, rfl⟩
  | cancel found unfinished => exact ⟨rfl, rfl⟩
  | recoverExpired found running late => exact ⟨rfl, rfl⟩
  | acknowledgeDelivery found ready => exact ⟨rfl, rfl⟩

/-- An append about the task itself. -/
theorem Due.effect {before after : LedgerState} {request : Request} {event : LedgerEvent}
    {task : TaskRecord} {host : Host} (due : Due before request event)
    (fresh : ∀ id ∈ request.newId, before.tasks[id]? = none)
    (done : LedgerState.Appended codec before event host after)
    (left : after.tasks[event.taskId]? = some task) (about : task.id = event.taskId) :
    Effect event.taskId ⟨before, request, .ok (event.reply task), after⟩ := by
  obtain ⟨new, rfl, left'⟩ | ⟨old, found, fits, left'⟩ := done.task due
  · cases due with
    | submit _ => exact .submitted (fresh _ rfl) left' rfl rfl rfl rfl rfl
  · cases left.symm.trans left'
    cases due with
    | claimNext _ _ _ =>
      cases fits with
      | claimed waiting => exact .claimed found waiting left' (if_pos about)
    | heartbeat _ _ _ => exact .heartbeat found left' rfl (if_pos rfl)
    | submit _ => cases fits
    | succeed _ _ => exact .other found left' rfl (.inl rfl) rfl rfl
    | fail _ _ => exact .other found left' rfl (.inl rfl) rfl rfl
    | cancel _ _ => exact .other found left' rfl (.inl rfl) rfl rfl
    | recoverExpired _ _ _ => exact .other found left' rfl (.inl rfl) rfl rfl
    | acknowledgeDelivery _ _ => exact .other found left' rfl (.inr rfl) rfl rfl

theorem Called.effect {entry : Entry} (called : Called codec entry) (id : TaskId) :
    Effect id entry := by
  obtain ⟨before, request, reply, after⟩ := entry
  obtain ⟨consistent, _, hosts, harmless, fresh, performed⟩ := called
  cases performed with
  | quiet quiet => exact .same rfl (quiet.tells id).1 (quiet.tells id).2
  | @appended _ event _ _ due done left =>
    have about := done.keyed consistent.keyed _ _ left
    by_cases own : event.taskId = id
    · subst own
      exact due.effect fresh done left about
    · exact .same (done.others own) (due.tells about own).1 (due.tells about own).2
  | faulted due failed =>
    have same := failed.unchanged (harmless 0)
    exact .same (congrArg (·.tasks[id]?) same) rfl (by cases request <;> rfl)
  | @recovered nowUnixMs _ _ _ marks distinct replied =>
    have silent : Entry.granted id ⟨before, .recoverExpired nowUnixMs, reply, after⟩ = none := by
      obtain ⟨_, tasks, rfl, _⟩ | ⟨error, _, rfl⟩ := replied <;> rfl
    obtain same | ⟨task, reason, eventTime, found, _, _, changed⟩ :=
      marks.task distinct id
    · exact .same same silent rfl
    · exact .other found changed rfl (.inl rfl) silent rfl

/-- How often the task was claimed. -/
def LedgerState.attempt (state : LedgerState) (id : TaskId) : Nat :=
  (state.tasks[id]?.map TaskRecord.attempt).getD 0

/-- The attempt counts the claims. -/
theorem Calls.attempt (calls : Calls codec history state) (id : TaskId) :
    history.countP (fun entry => (entry.granted id).isSome) = state.attempt id := by
  induction calls with
  | nil => rfl
  | cons calls called ih =>
    rw [List.countP_cons, ih]
    cases called.effect id with
    | same same granted _ => simp [LedgerState.attempt, same, granted]
    | submitted absent present attempt _ _ granted _ =>
      simp [LedgerState.attempt, absent, present, attempt, granted]
    | claimed found _ changed granted =>
      simp [LedgerState.attempt, found, changed, granted, LedgerEvent.change]
    | heartbeat found changed granted _ =>
      simp [LedgerState.attempt, found, changed, granted, LedgerEvent.change]
    | other found changed attempt _ granted _ =>
      simp [LedgerState.attempt, found, changed, attempt, granted]

/-- A lease was granted by a claim and extended by the heartbeats. -/
theorem Calls.lease (calls : Calls codec history state) {id : TaskId} {task : TaskRecord}
    {lease : TaskLease} (found : state.tasks[id]? = some task) (held : task.lease = some lease) :
    grantedToken id history = task.leaseToken ∧
      expiry id history = some lease.expiresAtUnixMs := by
  induction calls generalizing task lease with
  | nil => simp at found
  | @cons history entry calls called ih =>
    cases called.effect id with
    | same same granted extended =>
      rw [same] at found
      simpa [grantedToken, expiry, granted, extended] using ih found held
    | submitted absent present _ none _ _ _ =>
      cases present.symm.trans found
      cases none.symm.trans held
    | claimed old _ changed granted =>
      cases changed.symm.trans found
      simp [grantedToken, expiry, granted, held]
    | @heartbeat old expiresAtUnixMs eventTime before changed granted extended =>
      cases changed.symm.trans found
      simp only [LedgerEvent.change, Option.map_eq_some_iff] at held
      obtain ⟨lease', held', rfl⟩ := held
      have known := ih before held'
      simp [grantedToken, expiry, granted, extended, known, TaskRecord.leaseToken,
        LedgerEvent.change, held']
    | other before changed attempt kept granted extended =>
      cases changed.symm.trans found
      obtain none | same := kept
      · cases none.symm.trans held
      · have known := ih before (same.symm.trans held)
        simpa [grantedToken, expiry, granted, extended, TaskRecord.leaseToken, same, attempt]
          using known

theorem LedgerState.hasEnded_of_found {id : TaskId} {task : TaskRecord}
    (found : state.tasks[id]? = some task) : state.hasEnded id = task.status.isTerminal := by
  rw [LedgerState.hasEnded, found]
  rfl

/-- An end is never taken back. -/
theorem Called.hasEnded {entry : Entry} (called : Called codec entry) {id : TaskId}
    (ended : entry.before.hasEnded id = true) : entry.after.hasEnded id = true := by
  cases found : entry.before.tasks[id]? with
  | none =>
    rw [LedgerState.hasEnded, found] at ended
    cases ended
  | some task =>
    rw [LedgerState.hasEnded_of_found found] at ended
    obtain ⟨life, shows⟩ := called.consistent.lives id task found
    obtain ⟨task', found', steps⟩ := called.evolves id task found
    rw [LedgerState.hasEnded_of_found found', (steps.of_terminal shows ended).1]
    exact ended

/-- A task that has ended was ended by one call. -/
theorem Calls.ends (calls : Calls codec history state) (id : TaskId) :
    history.countP (Entry.ends id) = (state.hasEnded id).toNat := by
  induction calls with
  | nil => rfl
  | @cons history entry calls called ih =>
    rw [List.countP_cons, ih, Entry.ends]
    cases before : entry.before.hasEnded id with
    | true => simp [called.hasEnded before]
    | false => cases entry.after.hasEnded id <;> rfl

theorem Calls.split {later earlier : List Entry} {entry : Entry}
    (calls : Calls codec (later ++ entry :: earlier) state) :
    Calls codec earlier entry.before ∧ Called codec entry := by
  induction later generalizing state with
  | nil =>
    cases calls with
    | cons calls called => exact ⟨calls, called⟩
  | cons last later ih =>
    cases calls with
    | cons calls called => exact ih calls

theorem Quiet.lease {before : LedgerState} {request : Request}
    {reply : Except LedgerError Reply} (quiet : Quiet before request reply)
    {needed : TaskId × LeaseToken × Nat} (asked : request.lease = some needed) :
    ∃ error, reply = .error error := by
  cases quiet with
  | refused error => exact ⟨error, rfl⟩
  | _ => cases asked

/-- The lease that a worker's call was granted for. -/
theorem Called.lease {entry : Entry} (called : Called codec entry) {taskId : TaskId}
    {token : LeaseToken} {nowUnixMs : Nat} {reply : Reply}
    (asked : entry.request.lease = some (taskId, token, nowUnixMs))
    (accepted : entry.reply = .ok reply) :
    ∃ task lease, entry.before.tasks[taskId]? = some task ∧ task.status = .running ∧
      task.lease = some lease ∧ task.leaseToken = some token ∧
      nowUnixMs < lease.expiresAtUnixMs := by
  obtain ⟨before, request, reply', after⟩ := entry
  obtain ⟨_, _, hosts, _, _, performed⟩ := called
  cases performed with
  | quiet quiet =>
    obtain ⟨error, refused⟩ := quiet.lease asked
    cases refused.symm.trans accepted
  | faulted _ _ => cases accepted
  | appended due done left =>
    cases due with
    | heartbeat found granted later =>
      cases asked
      exact ⟨_, _, found, requireLease_ok granted⟩
    | succeed found granted =>
      cases asked
      exact ⟨_, _, found, requireLease_ok granted⟩
    | fail found granted =>
      cases asked
      exact ⟨_, _, found, requireLease_ok granted⟩
    | _ => cases asked
  | recovered marks distinct replied => cases asked

/-! ## A sample -/

namespace Sample

/-- Nothing fails. -/
def hosts : Nat → Host := fun _ => ⟨1700000000000, none⟩

theorem hosts_harmless : Harmless hosts := by
  intro index fault none
  cases none

/-- The call of a method. -/
def entry (state : LedgerState) (request : Request) : Entry where
  before := state
  request := request
  reply := (state.perform serde request hosts).1
  after := (state.perform serde request hosts).2

def id : TaskId := ⟨"task_1"⟩

def token : LeaseToken := ⟨"worker", 1⟩

def submitted : Entry :=
  entry ⟨[], 0, ∅, ∅⟩ (.submit "same" (.object [("work", .number (.posInt 1))]) id 1700000000000)

def claimed : Entry := entry submitted.after (.claimNext "worker" 100 50)

def extended : Entry := entry claimed.after (.heartbeat id token 149 200)

def succeeded : Entry :=
  entry extended.after (.succeed id token 160 (.object [("ok", .bool true)]))

/-- A late call is refused. -/
def failed : Entry := entry succeeded.after (.fail id token 161 "late failure")

/-- A call of the sample goes on with a run. -/
theorem runs_entry {history : List Entry} {state : LedgerState} {request : Request}
    (runs : CleanRuns serde Json.Value.Plain history state)
    (readable : request.Readable Json.Value.Plain)
    (fresh : ∀ id ∈ request.newId, ∀ entry ∈ history, entry.request.newId ≠ some id) :
    CleanRuns serde Json.Value.Plain (entry state request :: history) (entry state request).after :=
  .call runs rfl hosts_harmless readable fresh

theorem runs : CleanRuns serde Json.Value.Plain [failed, succeeded, extended, claimed, submitted]
    failed.after := by
  have start : CleanRuns serde Json.Value.Plain [] ⟨[], 0, ∅, ∅⟩ := .create rfl
  have first : CleanRuns serde Json.Value.Plain [submitted] submitted.after :=
    runs_entry start ⟨trivial, trivial⟩ (by intro _ _ _ none; cases none)
  have second : CleanRuns serde Json.Value.Plain [claimed, submitted] claimed.after :=
    runs_entry first trivial (by intro _ none; cases none)
  have third : CleanRuns serde Json.Value.Plain [extended, claimed, submitted] extended.after :=
    runs_entry second trivial (by intro _ none; cases none)
  have fourth : CleanRuns serde Json.Value.Plain [succeeded, extended, claimed, submitted]
      succeeded.after :=
    runs_entry third ⟨trivial, trivial⟩ (by intro _ none; cases none)
  exact runs_entry fourth trivial (by intro _ none; cases none)

theorem succeeded_reply : ∃ reply, succeeded.reply = .ok reply := by
  have accepted : succeeded.reply.toOption.isSome = true := by decide
  cases shown : succeeded.reply with
  | ok reply => exact ⟨reply, rfl⟩
  | error error =>
    rw [shown] at accepted
    cases accepted

end Sample

/-! ## Results -/

/-- A task is claimed once.  A worker's call is accepted with the token of that claim, before
the task ended and before its lease expired.  A task ends once, and then keeps its status,
result and error. -/
theorem CleanRuns.fenced (faithful : codec.Faithful readable)
    (runs : CleanRuns codec readable history state) :
    (∀ id, history.countP (fun entry => (entry.granted id).isSome) ≤ 1) ∧
    (∀ later entry earlier, history = later ++ entry :: earlier →
      ∀ taskId token nowUnixMs reply,
        entry.request.lease = some (taskId, token, nowUnixMs) → entry.reply = .ok reply →
        grantedToken taskId earlier = some token ∧
        (earlier.countP (Entry.ends taskId) = 0 ∧
          ∃ task, entry.before.tasks[taskId]? = some task ∧ task.status.isTerminal = false) ∧
        ∃ expires, expiry taskId earlier = some expires ∧ nowUnixMs < expires) ∧
    (∀ id, history.countP (Entry.ends id) ≤ 1) ∧
    (∀ entry ∈ history, ∀ (id : TaskId) (task : TaskRecord),
      entry.after.tasks[id]? = some task → task.status.isTerminal = true →
      ∃ task', state.tasks[id]? = some task' ∧ task'.status = task.status ∧
        task'.result = task.result ∧ task'.error = task.error) := by
  obtain ⟨consistent, calls, _⟩ := runs.consistent faithful
  refine ⟨?_, ?_, ?_, ?_⟩
  · intro id
    rw [calls.attempt id, LedgerState.attempt]
    cases found : state.tasks[id]? with
    | none => exact Nat.zero_le 1
    | some task =>
      obtain ⟨life, shows⟩ := consistent.lives id task found
      exact shows.wellFormed.attempt
  · intro later entry earlier split taskId token nowUnixMs reply asked accepted
    subst split
    obtain ⟨before, called⟩ := calls.split
    obtain ⟨task, lease, found, running, held, own, unexpired⟩ := called.lease asked accepted
    obtain ⟨granted, expires⟩ := before.lease found held
    have unfinished : task.status.isTerminal = false := by rw [running]; rfl
    refine ⟨granted.trans own, ⟨?_, task, found, unfinished⟩, _, expires, unexpired⟩
    rw [before.ends, LedgerState.hasEnded_of_found found, unfinished]
    rfl
  · intro id
    rw [calls.ends id]
    exact Bool.toNat_le _
  · intro entry member id task found ended
    obtain ⟨called, evolves⟩ := calls.evolves member
    obtain ⟨task', found', steps⟩ := evolves id task found
    obtain ⟨life, shows⟩ := called.kept.lives id task found
    exact ⟨task', found', steps.of_terminal shows ended⟩

theorem CleanRuns.fenced_sample :
    grantedToken Sample.id [Sample.extended, Sample.claimed, Sample.submitted] =
      some Sample.token ∧
    ∃ expires, expiry Sample.id [Sample.extended, Sample.claimed, Sample.submitted] =
      some expires ∧ 160 < expires := by
  obtain ⟨reply, accepted⟩ := Sample.succeeded_reply
  obtain ⟨_, lease, _⟩ := CleanRuns.fenced serde_faithful Sample.runs
  obtain ⟨granted, _, unexpired⟩ := lease [Sample.failed] Sample.succeeded
    [Sample.extended, Sample.claimed, Sample.submitted] rfl Sample.id Sample.token 160 reply rfl
    accepted
  exact ⟨granted, unexpired⟩

/-- Records are well formed at every point of a run, the attempt says whether the task was
claimed, the submission of a task is never changed, its delivery moves forward, and a refused
call changes nothing but what `recover_expired` has ended. -/
theorem CleanRuns.recordsWellFormed (faithful : codec.Faithful readable)
    (runs : CleanRuns codec readable history state) :
    (∀ (id : TaskId) (task : TaskRecord), state.tasks[id]? = some task →
      task.WellFormed ∧
        task.attempt = history.countP fun entry => (entry.granted id).isSome) ∧
    (∀ entry ∈ history, ∀ (id : TaskId) (task : TaskRecord),
      entry.before.tasks[id]? = some task →
      (∃ task', entry.after.tasks[id]? = some task' ∧
        DeliveryState.Moves task.delivery task'.delivery) ∧
      ∃ task', state.tasks[id]? = some task' ∧ task.SameTask task') ∧
    (∀ entry ∈ history, ∀ error, entry.reply = .error error →
      entry.after.tasks = entry.before.tasks ∨
      ∃ nowUnixMs, entry.request = .recoverExpired nowUnixMs ∧
        ∀ id : TaskId, entry.after.tasks[id]? = entry.before.tasks[id]? ∨
          ∃ task task', entry.before.tasks[id]? = some task ∧ task.status = .running ∧
            (∃ lease ∈ task.lease, lease.expiresAtUnixMs ≤ nowUnixMs) ∧
            entry.after.tasks[id]? = some task' ∧ task'.status = .unknown) := by
  obtain ⟨consistent, calls, _⟩ := runs.consistent faithful
  refine ⟨?_, ?_, ?_⟩
  · intro id task found
    obtain ⟨life, shows⟩ := consistent.lives id task found
    refine ⟨shows.wellFormed, ?_⟩
    rw [calls.attempt id, LedgerState.attempt, found]
    rfl
  · intro entry member id task found
    obtain ⟨called, evolves⟩ := calls.evolves member
    obtain ⟨hosts, harmless, fresh, performed⟩ := called.spec
    obtain ⟨life, shows⟩ := called.consistent.lives id task found
    constructor
    · obtain ⟨task', found', rfl | ⟨event, eventTime, fits, rfl⟩⟩ :=
        performed.step fresh found
      · exact ⟨task', found', .stays _⟩
      · obtain ⟨life', step, shows'⟩ := fits.change_shows shows
        refine ⟨_, found', ?_⟩
        rw [shows.delivery, shows'.delivery]
        exact step.delivery_moves
    · obtain ⟨task', found', steps⟩ := (called.evolves.trans evolves) id task found
      exact ⟨task', found', steps.sameTask⟩
  · intro entry member error refused
    obtain ⟨called, _⟩ := calls.evolves member
    obtain ⟨hosts, harmless, fresh, performed⟩ := called.spec
    exact performed.refused refused

theorem CleanRuns.recordsWellFormed_sample : ∃ task, Sample.failed.after.tasks[Sample.id]? = some task ∧
    task.WellFormed ∧ task.attempt = 1 := by
  have present : (Sample.failed.after.tasks[Sample.id]?.map TaskRecord.attempt) = some 1 := by
    decide
  obtain ⟨task, found, attempt⟩ := Option.map_eq_some_iff.mp present
  obtain ⟨records, _⟩ := CleanRuns.recordsWellFormed serde_faithful Sample.runs
  exact ⟨task, found, (records Sample.id task found).1, attempt⟩

/-- The replies to calls made one after the other. -/
def replies (codec : Codec) (state : LedgerState) :
    List (Request × (Nat → Host)) → List (Except LedgerError Reply)
  | [] => []
  | (request, hosts) :: rest =>
    (state.perform codec request hosts).1 ::
      replies codec (state.perform codec request hosts).2 rest

/-- Opening the file gives the live ledger, and the same replies from then on. -/
theorem CleanRuns.reopens (faithful : codec.Faithful readable)
    (runs : CleanRuns codec readable history state) :
    ∃ reopened, openFile codec state.file = .ok reopened ∧
      reopened.tasks = state.tasks ∧
      (∀ key : String, reopened.idempotency[key]? = state.idempotency[key]?) ∧
      reopened.nextSequence = state.nextSequence ∧
      ∀ calls, replies codec reopened calls = replies codec state calls := by
  obtain ⟨consistent, _⟩ := runs.consistent faithful
  exact ⟨state, consistent.openFile, rfl, fun _ => rfl, rfl, fun _ => rfl⟩

theorem CleanRuns.reopens_sample : ∃ reopened,
    openFile serde Sample.failed.after.file = .ok reopened ∧
      reopened.tasks = Sample.failed.after.tasks ∧
      reopened.nextSequence = Sample.failed.after.nextSequence := by
  obtain ⟨reopened, opened, tasks, _, nextSequence, _⟩ :=
    CleanRuns.reopens serde_faithful Sample.runs
  exact ⟨reopened, opened, tasks, nextSequence⟩

end Runs

end Nausicaa.TaskLedger
