import Std.Data.ExtTreeMap
import Nausicaa.Core.Tool
import Nausicaa.Json.Value
import Nausicaa.Jsonl.Lines
import Nausicaa.Text.Utf8

/-! # The task ledger

`JsonlTaskLedger` of the crate `task-ledger`: tasks with idempotency keys and leases, kept
as a file of JSON lines that is replayed when the ledger is opened.  The clock, the ids that
`TaskId::new` makes and the failing of writes are inputs (`Host`); what serde_json reads and
writes is a `Codec`. -/

namespace Nausicaa.TaskLedger

abbrev Bytes := List UInt8

/-- `\n`. -/
def newline : UInt8 := 0x0A

/-! ## Data -/

structure TaskId where
  value : String
  deriving DecidableEq, Repr

namespace TaskId

instance : Ord TaskId := ⟨compareOn value⟩

instance : Std.TransOrd TaskId := inferInstanceAs (Std.TransCmp (compareOn value))

instance : Std.LawfulEqOrd TaskId where
  eq_of_compare {left right} same := by
    have same : left.value = right.value := Std.LawfulEqOrd.eq_of_compare (α := String) same
    cases left
    cases right
    exact congrArg TaskId.mk same

end TaskId

inductive TaskStatus where
  | pending
  | running
  | succeeded
  | failed
  | cancelled
  | unknown
  deriving DecidableEq, Repr

def TaskStatus.isTerminal : TaskStatus → Bool
  | .succeeded | .failed | .cancelled | .unknown => true
  | .pending | .running => false

inductive DeliveryState where
  | notReady
  | pending
  | acknowledged
  deriving DecidableEq, Repr

structure TaskLease where
  workerId : String
  expiresAtUnixMs : Nat
  deriving DecidableEq, Repr

/-- Identity of one claim.  The attempt fences off results from earlier claims. -/
structure LeaseToken where
  workerId : String
  attempt : Nat
  deriving DecidableEq, Repr

structure TaskRecord where
  id : TaskId
  idempotencyKey : String
  payload : Json.Value
  status : TaskStatus
  attempt : Nat
  lease : Option TaskLease
  result : Option Json.Value
  error : Option String
  delivery : DeliveryState
  createdAtUnixMs : Nat
  updatedAtUnixMs : Nat
  deriving DecidableEq

def TaskRecord.leaseToken (task : TaskRecord) : Option LeaseToken :=
  task.lease.map fun lease => ⟨lease.workerId, task.attempt⟩

/-- The task that `submit` creates. -/
def TaskRecord.submitted (id : TaskId) (idempotencyKey : String) (payload : Json.Value)
    (now : Nat) : TaskRecord where
  id := id
  idempotencyKey := idempotencyKey
  payload := payload
  status := .pending
  attempt := 0
  lease := none
  result := none
  error := none
  delivery := .notReady
  createdAtUnixMs := now
  updatedAtUnixMs := now

structure Submission where
  task : TaskRecord
  created : Bool
  deriving DecidableEq

inductive LedgerEvent where
  | submitted (task : TaskRecord)
  | claimed (taskId : TaskId) (lease : TaskLease)
  | heartbeat (taskId : TaskId) (expiresAtUnixMs : Nat)
  | succeeded (taskId : TaskId) (result : Json.Value)
  | failed (taskId : TaskId) (error : String)
  | cancelled (taskId : TaskId) (reason : String)
  | markedUnknown (taskId : TaskId) (reason : String)
  | deliveryAcknowledged (taskId : TaskId)
  deriving DecidableEq

structure LedgerEnvelope where
  sequence : Nat
  atUnixMs : Nat
  event : LedgerEvent
  deriving DecidableEq

inductive LedgerError where
  | io (message : String)
  | corrupt (line : Nat) (message : String)
  | poisoned
  | unknownTask (taskId : TaskId)
  | invalidLease (taskId : TaskId) (reason : String)
  | invalidTransition (taskId : TaskId) (status : TaskStatus) (operation : String)
  deriving DecidableEq, Repr

abbrev Tasks := Std.ExtTreeMap TaskId TaskRecord

structure LedgerState where
  file : Bytes
  nextSequence : Nat
  tasks : Tasks
  idempotency : Std.ExtTreeMap String TaskId

/-- `serde_json::to_vec` and `serde_json::from_str` for ledger envelopes. -/
structure Codec where
  encode : LedgerEnvelope → String
  decode : String → Except String LedgerEnvelope

/-- A step of an append fails after this many bytes of the record reached the file. -/
structure Fault where
  written : Nat
  message : String

/-- What an append finds: the time, and whether writing fails. -/
structure Host where
  now : Nat
  fault : Option Fault

/-! ## Events -/

/-- What `terminal` makes of a task. -/
def TaskRecord.terminal (task : TaskRecord) (status : TaskStatus) (error : Option String)
    (eventTime : Nat) : TaskRecord :=
  { task with
    status
    lease := none
    error
    delivery := .pending
    updatedAtUnixMs := eventTime }

namespace LedgerEvent

def taskId : LedgerEvent → TaskId
  | .submitted task => task.id
  | .claimed taskId _ | .heartbeat taskId _ | .succeeded taskId _ | .failed taskId _
  | .cancelled taskId _ | .markedUnknown taskId _ | .deliveryAcknowledged taskId => taskId

/-- What `apply_event` makes of the task it finds. -/
def change (event : LedgerEvent) (eventTime : Nat) (task : TaskRecord) : TaskRecord :=
  match event with
  | .submitted task => task
  | .claimed _ lease =>
    { task with
      status := .running
      attempt := task.attempt + 1
      lease := some lease
      updatedAtUnixMs := eventTime }
  | .heartbeat _ expiresAtUnixMs =>
    { task with
      lease := task.lease.map fun lease => { lease with expiresAtUnixMs }
      updatedAtUnixMs := eventTime }
  | .succeeded _ result =>
    { task.terminal .succeeded none eventTime with result := some result }
  | .failed _ error => task.terminal .failed (some error) eventTime
  | .cancelled _ reason => task.terminal .cancelled (some reason) eventTime
  | .markedUnknown _ reason => task.terminal .unknown (some reason) eventTime
  | .deliveryAcknowledged _ =>
    { task with delivery := .acknowledged, updatedAtUnixMs := eventTime }

/-- The index after an append. -/
def index (event : LedgerEvent) (idempotency : Std.ExtTreeMap String TaskId) :
    Std.ExtTreeMap String TaskId :=
  match event with
  | .submitted task => idempotency.insert task.idempotencyKey task.id
  | _ => idempotency

end LedgerEvent

def applyEvent (tasks : Tasks) (event : LedgerEvent) (eventTime : Nat) :
    Except LedgerError Tasks :=
  match event with
  | .submitted task => .ok (tasks.insert task.id task)
  | event =>
    match tasks[event.taskId]? with
    | some task => .ok (tasks.insert event.taskId (event.change eventTime task))
    | none => .error (.unknownTask event.taskId)

/-! ## Opening -/

/-- `BufRead::lines` takes `\n` or `\r\n` off the end of a line. -/
def stripLineEnd (text : String) : String :=
  match text.toList.reverse with
  | '\n' :: '\r' :: rest => String.ofList rest.reverse
  | '\n' :: rest => String.ofList rest.reverse
  | _ => text

/-- One line as `BufRead::lines` gives it. -/
def readLine (line : Bytes) : Except LedgerError String :=
  match Text.decode line with
  | some text => .ok (stripLineEnd text)
  | none => .error (.io "stream did not contain valid UTF-8")

/-- The variables of the loop in `open`. -/
structure Replay where
  tasks : Tasks
  nextSequence : Nat

def Replay.start : Replay := ⟨∅, 0⟩

/-- One turn of the loop in `open`. -/
def Replay.line (replay : Replay) (codec : Codec) (index : Nat) (line : Bytes) :
    Except LedgerError Replay :=
  match readLine line with
  | .error error => .error error
  | .ok text =>
    if Core.isBlank text then
      .ok replay
    else
      match codec.decode text with
      | .error message => .error (.corrupt (index + 1) message)
      | .ok envelope =>
        match applyEvent replay.tasks envelope.event envelope.atUnixMs with
        | .error error => .error error
        | .ok tasks => .ok ⟨tasks, max replay.nextSequence (envelope.sequence + 1)⟩

def Replay.lines (replay : Replay) (codec : Codec) (index : Nat) :
    List Bytes → Except LedgerError Replay
  | [] => .ok replay
  | line :: rest =>
    match replay.line codec index line with
    | .error error => .error error
    | .ok replay => replay.lines codec (index + 1) rest

/-- The index that `open` collects. -/
def indexOf (tasks : Tasks) : Std.ExtTreeMap String TaskId :=
  Std.ExtTreeMap.ofList (tasks.toList.map fun entry => (entry.2.idempotencyKey, entry.2.id))

/-- `JsonlTaskLedger::open`, when no I/O operation fails. -/
def openFile (codec : Codec) (file : Bytes) : Except LedgerError LedgerState :=
  match Replay.start.lines codec 0 (Jsonl.lines newline file) with
  | .error error => .error error
  | .ok replay => .ok ⟨file, replay.nextSequence, replay.tasks, indexOf replay.tasks⟩

namespace LedgerState

/-! ## Operations -/

/-- The line that is written for an envelope. -/
def record (codec : Codec) (envelope : LedgerEnvelope) : Bytes :=
  Text.encode (codec.encode envelope) ++ [newline]

/-- The envelope of the next append. -/
def envelope (state : LedgerState) (event : LedgerEvent) (host : Host) : LedgerEnvelope :=
  ⟨state.nextSequence, host.now, event⟩

def appendLocked (state : LedgerState) (codec : Codec) (event : LedgerEvent) (host : Host) :
    Except LedgerError Unit × LedgerState :=
  let envelope := state.envelope event host
  match host.fault with
  | some fault =>
    (.error (.io fault.message),
      { state with file := state.file ++ (record codec envelope).take fault.written })
  | none =>
    let state := { state with file := state.file ++ record codec envelope }
    match applyEvent state.tasks event envelope.atUnixMs with
    | .error error => (.error error, state)
    | .ok tasks =>
      (.ok (),
        { state with
          tasks
          idempotency := event.index state.idempotency
          nextSequence := state.nextSequence + 1 })

/-- `append_locked`, and then `state.tasks[task_id].clone()`. -/
def appendTo (state : LedgerState) (codec : Codec) (taskId : TaskId) (event : LedgerEvent)
    (host : Host) : Except LedgerError TaskRecord × LedgerState :=
  match state.appendLocked codec event host with
  | (.error error, state) => (.error error, state)
  | (.ok (), state) =>
    match state.tasks[taskId]? with
    | some task => (.ok task, state)
    -- Indexing would panic and poison the lock; the task was found before the append.
    | none => (.error .poisoned, state)

def requireTask (state : LedgerState) (taskId : TaskId) : Except LedgerError TaskRecord :=
  match state.tasks[taskId]? with
  | some task => .ok task
  | none => .error (.unknownTask taskId)

def invalid (task : TaskRecord) (operation : String) : LedgerError :=
  .invalidTransition task.id task.status operation

def requireLease (task : TaskRecord) (token : LeaseToken) (nowUnixMs : Nat) :
    Except LedgerError TaskLease :=
  if task.status ≠ .running then
    .error (invalid task "lease operation")
  else
    match task.lease with
    | none => .error (.invalidLease task.id "running task has no lease")
    | some lease =>
      if token.workerId ≠ lease.workerId ∨ token.attempt ≠ task.attempt then
        .error (.invalidLease task.id "worker or claim attempt does not match")
      else if nowUnixMs ≥ lease.expiresAtUnixMs then
        .error (.invalidLease task.id "lease has expired")
      else
        .ok lease

/-- `id` and `now` are what `TaskId::new` and `now_ms` give. -/
def submit (state : LedgerState) (codec : Codec) (idempotencyKey : String)
    (payload : Json.Value) (id : TaskId) (now : Nat) (host : Host) :
    Except LedgerError Submission × LedgerState :=
  match state.idempotency[idempotencyKey]?.bind fun taskId => state.tasks[taskId]? with
  | some task => (.ok ⟨task, false⟩, state)
  | none =>
    let task := TaskRecord.submitted id idempotencyKey payload now
    match state.appendLocked codec (.submitted task) host with
    | (.error error, state) => (.error error, state)
    | (.ok (), state) => (.ok ⟨task, true⟩, state)

/-- `u64::MAX`. -/
def maxUnixMs : Nat := 0xFFFFFFFFFFFFFFFF

/-- The order of `(task.created_at_unix_ms, task.id)`. -/
def created (left right : TaskRecord) : Ordering :=
  (compare left.createdAtUnixMs right.createdAtUnixMs).then (compare left.id right.id)

/-- `min_by_key`: the first task that none is before. -/
def firstCreated : List TaskRecord → Option TaskRecord
  | [] => none
  | task :: rest =>
    match firstCreated rest with
    | none => some task
    | some other => if created other task = .lt then some other else some task

def values (tasks : Tasks) : List TaskRecord := tasks.toList.map Prod.snd

def claimNext (state : LedgerState) (codec : Codec) (workerId : String)
    (nowUnixMs leaseDurationMs : Nat) (host : Host) :
    Except LedgerError (Option TaskRecord) × LedgerState :=
  match firstCreated ((values state.tasks).filter fun task => task.status = .pending) with
  | none => (.ok none, state)
  | some task =>
    let lease : TaskLease := ⟨workerId, min (nowUnixMs + max leaseDurationMs 1) maxUnixMs⟩
    match state.appendLocked codec (.claimed task.id lease) host with
    | (.error error, state) => (.error error, state)
    | (.ok (), state) => (.ok state.tasks[task.id]?, state)

def heartbeat (state : LedgerState) (codec : Codec) (taskId : TaskId) (token : LeaseToken)
    (nowUnixMs expiresAtUnixMs : Nat) (host : Host) :
    Except LedgerError TaskRecord × LedgerState :=
  match state.requireTask taskId with
  | .error error => (.error error, state)
  | .ok task =>
    match requireLease task token nowUnixMs with
    | .error error => (.error error, state)
    | .ok lease =>
      if expiresAtUnixMs ≤ lease.expiresAtUnixMs then
        (.error (.invalidLease task.id "heartbeat must extend the current lease"), state)
      else
        state.appendTo codec taskId (.heartbeat taskId expiresAtUnixMs) host

def finish (state : LedgerState) (codec : Codec) (taskId : TaskId) (token : LeaseToken)
    (nowUnixMs : Nat) (event : LedgerEvent) (host : Host) :
    Except LedgerError TaskRecord × LedgerState :=
  match state.requireTask taskId with
  | .error error => (.error error, state)
  | .ok task =>
    match requireLease task token nowUnixMs with
    | .error error => (.error error, state)
    | .ok _ => state.appendTo codec taskId event host

def succeed (state : LedgerState) (codec : Codec) (taskId : TaskId) (token : LeaseToken)
    (nowUnixMs : Nat) (result : Json.Value) (host : Host) :
    Except LedgerError TaskRecord × LedgerState :=
  state.finish codec taskId token nowUnixMs (.succeeded taskId result) host

def fail (state : LedgerState) (codec : Codec) (taskId : TaskId) (token : LeaseToken)
    (nowUnixMs : Nat) (error : String) (host : Host) :
    Except LedgerError TaskRecord × LedgerState :=
  state.finish codec taskId token nowUnixMs (.failed taskId error) host

def cancel (state : LedgerState) (codec : Codec) (taskId : TaskId) (reason : String)
    (host : Host) : Except LedgerError TaskRecord × LedgerState :=
  match state.requireTask taskId with
  | .error error => (.error error, state)
  | .ok task =>
    if task.status.isTerminal then
      (.error (invalid task "cancel"), state)
    else
      state.appendTo codec taskId (.cancelled taskId reason) host

/-- The tasks that `recover_expired` ends. -/
def expired (tasks : Tasks) (nowUnixMs : Nat) : List TaskId :=
  ((values tasks).filter fun task =>
    task.status = .running ∧ ∃ lease ∈ task.lease, lease.expiresAtUnixMs ≤ nowUnixMs).map
      TaskRecord.id

/-- The loop of `recover_expired`; `hosts` are what its appends find, one after the other. -/
def markUnknown (codec : Codec) (state : LedgerState) :
    List TaskId → (Nat → Host) → Except LedgerError (List TaskRecord) × LedgerState
  | [], _ => (.ok [], state)
  | taskId :: rest, hosts =>
    let reason := "worker lease expired; completion cannot be determined"
    match state.appendTo codec taskId (.markedUnknown taskId reason) (hosts 0) with
    | (.error error, state) => (.error error, state)
    | (.ok task, state) =>
      match markUnknown codec state rest fun index => hosts (index + 1) with
      | (.error error, state) => (.error error, state)
      | (.ok recovered, state) => (.ok (task :: recovered), state)

/-- Marks expired running tasks unknown instead of putting them back into `pending`. -/
def recoverExpired (state : LedgerState) (codec : Codec) (nowUnixMs : Nat)
    (hosts : Nat → Host) : Except LedgerError (List TaskRecord) × LedgerState :=
  markUnknown codec state (expired state.tasks nowUnixMs) hosts

def acknowledgeDelivery (state : LedgerState) (codec : Codec) (taskId : TaskId) (host : Host) :
    Except LedgerError TaskRecord × LedgerState :=
  match state.requireTask taskId with
  | .error error => (.error error, state)
  | .ok task =>
    if task.delivery ≠ .pending then
      (.error (invalid task "acknowledge_delivery"), state)
    else
      state.appendTo codec taskId (.deliveryAcknowledged taskId) host

def get (state : LedgerState) (taskId : TaskId) : Option TaskRecord := state.tasks[taskId]?

def list (state : LedgerState) : List TaskRecord := values state.tasks

end LedgerState

/-! ## Calls -/

/-- A call of a public method, with the id and the time that `submit` takes for a new task. -/
inductive Request where
  | submit (idempotencyKey : String) (payload : Json.Value) (id : TaskId) (now : Nat)
  | claimNext (workerId : String) (nowUnixMs leaseDurationMs : Nat)
  | heartbeat (taskId : TaskId) (token : LeaseToken) (nowUnixMs expiresAtUnixMs : Nat)
  | succeed (taskId : TaskId) (token : LeaseToken) (nowUnixMs : Nat) (result : Json.Value)
  | fail (taskId : TaskId) (token : LeaseToken) (nowUnixMs : Nat) (error : String)
  | cancel (taskId : TaskId) (reason : String)
  | recoverExpired (nowUnixMs : Nat)
  | acknowledgeDelivery (taskId : TaskId)
  | get (taskId : TaskId)
  | list

inductive Reply where
  | submission (submission : Submission)
  | claim (task : Option TaskRecord)
  | task (task : TaskRecord)
  | recovered (tasks : List TaskRecord)
  | found (task : Option TaskRecord)
  | listed (tasks : List TaskRecord)
  deriving DecidableEq

/-- The result of a method as a `Reply`. -/
def answer {α : Type} (reply : α → Reply) :
    Except LedgerError α × LedgerState → Except LedgerError Reply × LedgerState
  | (.ok value, state) => (.ok (reply value), state)
  | (.error error, state) => (.error error, state)

/-- The call of a method under the lock; its appends find `hosts`, one after the other. -/
def LedgerState.perform (state : LedgerState) (codec : Codec) (request : Request)
    (hosts : Nat → Host) : Except LedgerError Reply × LedgerState :=
  match request with
  | .submit idempotencyKey payload id now =>
    answer .submission (state.submit codec idempotencyKey payload id now (hosts 0))
  | .claimNext workerId nowUnixMs leaseDurationMs =>
    answer .claim (state.claimNext codec workerId nowUnixMs leaseDurationMs (hosts 0))
  | .heartbeat taskId token nowUnixMs expiresAtUnixMs =>
    answer .task (state.heartbeat codec taskId token nowUnixMs expiresAtUnixMs (hosts 0))
  | .succeed taskId token nowUnixMs result =>
    answer .task (state.succeed codec taskId token nowUnixMs result (hosts 0))
  | .fail taskId token nowUnixMs error =>
    answer .task (state.fail codec taskId token nowUnixMs error (hosts 0))
  | .cancel taskId reason => answer .task (state.cancel codec taskId reason (hosts 0))
  | .recoverExpired nowUnixMs => answer .recovered (state.recoverExpired codec nowUnixMs hosts)
  | .acknowledgeDelivery taskId =>
    answer .task (state.acknowledgeDelivery codec taskId (hosts 0))
  | .get taskId => (.ok (.found (state.get taskId)), state)
  | .list => (.ok (.listed state.list), state)

end Nausicaa.TaskLedger
