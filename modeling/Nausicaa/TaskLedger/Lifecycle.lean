import Mathlib.Logic.Relation
import Nausicaa.TaskLedger.Ledger

/-! # The life of a task

What the fields of a task record mean together.  A task waits, runs under a lease, ends
once, and its end is delivered once; a `Life` can be nothing else.  The records of the ledger
show a life, and an event that its methods append is a step of that life
(`LedgerEvent.Fits.change_shows`). -/

namespace Nausicaa.TaskLedger

/-- How a task ends. -/
inductive Outcome where
  | succeeded (result : Json.Value)
  | failed (error : String)
  | cancelled (reason : String)
  | unknown (reason : String)

namespace Outcome

def status : Outcome → TaskStatus
  | .succeeded _ => .succeeded
  | .failed _ => .failed
  | .cancelled _ => .cancelled
  | .unknown _ => .unknown

def result : Outcome → Option Json.Value
  | .succeeded result => some result
  | .failed _ | .cancelled _ | .unknown _ => none

def error : Outcome → Option String
  | .succeeded _ => none
  | .failed error | .cancelled error | .unknown error => some error

end Outcome

inductive Life where
  | waiting
  | running (lease : TaskLease)
  | ended (outcome : Outcome) (claimed delivered : Bool)

namespace Life

inductive Step : Life → Life → Prop where
  | claim (lease : TaskLease) : Step .waiting (.running lease)
  | extend {lease : TaskLease} {expiresAtUnixMs : Nat} :
    lease.expiresAtUnixMs < expiresAtUnixMs →
    Step (.running lease) (.running { lease with expiresAtUnixMs })
  | finish {lease : TaskLease} (outcome : Outcome) :
    Step (.running lease) (.ended outcome true false)
  | cancel (reason : String) : Step .waiting (.ended (.cancelled reason) false false)
  | deliver {outcome : Outcome} {claimed : Bool} :
    Step (.ended outcome claimed false) (.ended outcome claimed true)

abbrev Steps := Relation.ReflTransGen Step

/-! ## What a life shows -/

def status : Life → TaskStatus
  | .waiting => .pending
  | .running _ => .running
  | .ended outcome _ _ => outcome.status

def attempt : Life → Nat
  | .waiting => 0
  | .running _ => 1
  | .ended _ claimed _ => claimed.toNat

def lease : Life → Option TaskLease
  | .waiting | .ended _ _ _ => none
  | .running lease => some lease

def result : Life → Option Json.Value
  | .waiting | .running _ => none
  | .ended outcome _ _ => outcome.result

def error : Life → Option String
  | .waiting | .running _ => none
  | .ended outcome _ _ => outcome.error

def delivery : Life → DeliveryState
  | .waiting | .running _ => .notReady
  | .ended _ _ delivered => if delivered then .acknowledged else .pending

variable {life life' : Life}

theorem status_pending (status : life.status = .pending) : life = .waiting := by
  cases life with
  | waiting => rfl
  | running lease => cases status
  | ended outcome claimed delivered => cases outcome <;> cases status

theorem status_running (status : life.status = .running) : ∃ lease, life = .running lease := by
  cases life with
  | waiting => cases status
  | running lease => exact ⟨lease, rfl⟩
  | ended outcome claimed delivered => cases outcome <;> cases status

theorem status_terminal (terminal : life.status.isTerminal = true) :
    ∃ outcome claimed delivered, life = .ended outcome claimed delivered := by
  cases life with
  | waiting => cases terminal
  | running lease => cases terminal
  | ended outcome claimed delivered => exact ⟨outcome, claimed, delivered, rfl⟩

theorem isTerminal_ended (outcome : Outcome) (claimed delivered : Bool) :
    (ended outcome claimed delivered).status.isTerminal = true := by
  cases outcome <;> rfl

/-! ## What never changes -/

/-- An end is final. -/
theorem Step.of_ended {outcome : Outcome} {claimed delivered : Bool}
    (step : Step (.ended outcome claimed delivered) life) : life = .ended outcome claimed true := by
  cases step
  rfl

theorem Steps.of_ended {outcome : Outcome} {claimed delivered : Bool}
    (steps : Steps (.ended outcome claimed delivered) life) :
    ∃ delivered', life = .ended outcome claimed delivered' := by
  induction steps with
  | refl => exact ⟨delivered, rfl⟩
  | tail _ step ih =>
    obtain ⟨_, rfl⟩ := ih
    exact ⟨true, step.of_ended⟩

end Life

/-- The ways in which the delivery of a task moves on. -/
inductive DeliveryState.Moves : DeliveryState → DeliveryState → Prop where
  | stays (delivery : DeliveryState) : Moves delivery delivery
  | ready : Moves .notReady .pending
  | acknowledged : Moves .pending .acknowledged

theorem Life.Step.delivery_moves {life life' : Life} (step : Life.Step life life') :
    DeliveryState.Moves life.delivery life'.delivery := by
  cases step with
  | claim lease => exact .stays _
  | extend later => exact .stays _
  | finish outcome => exact .ready
  | cancel reason => exact .ready
  | deliver => exact .acknowledged

/-! ## Records -/

namespace TaskRecord

/-- The record tells how far the task's life is. -/
structure Shows (task : TaskRecord) (life : Life) : Prop where
  status : task.status = life.status
  attempt : task.attempt = life.attempt
  lease : task.lease = life.lease
  result : task.result = life.result
  error : task.error = life.error
  delivery : task.delivery = life.delivery

/-- How the fields of a record depend on each other. -/
structure WellFormed (task : TaskRecord) : Prop where
  lease : task.lease.isSome ↔ task.status = .running
  attempt : task.attempt ≤ 1
  delivery : task.delivery = .notReady ↔ task.status = .pending ∨ task.status = .running
  result : task.result.isSome ↔ task.status = .succeeded
  error : task.error.isSome ↔
    task.status = .failed ∨ task.status = .cancelled ∨ task.status = .unknown

/-- What is fixed when a task is submitted. -/
structure SameTask (task task' : TaskRecord) : Prop where
  id : task'.id = task.id
  idempotencyKey : task'.idempotencyKey = task.idempotencyKey
  payload : task'.payload = task.payload
  createdAtUnixMs : task'.createdAtUnixMs = task.createdAtUnixMs

theorem SameTask.refl (task : TaskRecord) : task.SameTask task := ⟨rfl, rfl, rfl, rfl⟩

theorem SameTask.trans {task task' task'' : TaskRecord} (first : task.SameTask task')
    (second : task'.SameTask task'') : task.SameTask task'' where
  id := second.id.trans first.id
  idempotencyKey := second.idempotencyKey.trans first.idempotencyKey
  payload := second.payload.trans first.payload
  createdAtUnixMs := second.createdAtUnixMs.trans first.createdAtUnixMs

theorem submitted_shows (id : TaskId) (idempotencyKey : String) (payload : Json.Value)
    (now : Nat) : (submitted id idempotencyKey payload now).Shows .waiting :=
  ⟨rfl, rfl, rfl, rfl, rfl, rfl⟩

/-- A record that shows a life is well formed. -/
theorem Shows.wellFormed {task : TaskRecord} {life : Life} (shows : task.Shows life) :
    task.WellFormed := by
  obtain ⟨status, attempt, lease, result, error, delivery⟩ := shows
  cases life with
  | waiting =>
    constructor <;> simp [status, attempt, lease, result, error, delivery, Life.status,
      Life.attempt, Life.lease, Life.result, Life.error, Life.delivery]
  | running lease =>
    constructor <;> simp [status, attempt, lease, result, error, delivery, Life.status,
      Life.attempt, Life.lease, Life.result, Life.error, Life.delivery]
  | ended outcome claimed delivered =>
    cases outcome <;> constructor <;> simp [status, attempt, lease, result, error, delivery,
      Life.status, Life.attempt, Life.lease, Life.result, Life.error, Life.delivery,
      Outcome.status, Outcome.result, Outcome.error, Bool.toNat_le] <;> split <;> simp

end TaskRecord

/-! ## Events -/

namespace LedgerEvent

/-- What the methods have found out about a task when they append an event about it. -/
inductive Fits : LedgerEvent → TaskRecord → Prop where
  | claimed {task : TaskRecord} {taskId : TaskId} {lease : TaskLease} :
    task.status = .pending → Fits (.claimed taskId lease) task
  | heartbeat {task : TaskRecord} {taskId : TaskId} {lease : TaskLease} {expiresAtUnixMs : Nat} :
    task.status = .running → task.lease = some lease → lease.expiresAtUnixMs < expiresAtUnixMs →
    Fits (.heartbeat taskId expiresAtUnixMs) task
  | succeeded {task : TaskRecord} {taskId : TaskId} {result : Json.Value} :
    task.status = .running → Fits (.succeeded taskId result) task
  | failed {task : TaskRecord} {taskId : TaskId} {error : String} :
    task.status = .running → Fits (.failed taskId error) task
  | cancelled {task : TaskRecord} {taskId : TaskId} {reason : String} :
    task.status.isTerminal = false → Fits (.cancelled taskId reason) task
  | markedUnknown {task : TaskRecord} {taskId : TaskId} {reason : String} :
    task.status = .running → Fits (.markedUnknown taskId reason) task
  | deliveryAcknowledged {task : TaskRecord} {taskId : TaskId} :
    task.delivery = .pending → Fits (.deliveryAcknowledged taskId) task

variable {event : LedgerEvent} {task : TaskRecord} {life : Life} {eventTime : Nat}

theorem Fits.sameTask (fits : event.Fits task) : task.SameTask (event.change eventTime task) := by
  cases fits <;> exact ⟨rfl, rfl, rfl, rfl⟩

/-- The end of a task by its worker or after its lease. -/
theorem terminal_shows (running : task.status = .running) (shows : task.Shows life)
    (outcome : Outcome) {task' : TaskRecord} (status : task'.status = outcome.status)
    (attempt : task'.attempt = task.attempt) (lease : task'.lease = none)
    (result : task'.result = outcome.result) (error : task'.error = outcome.error)
    (delivery : task'.delivery = .pending) :
    ∃ life', Life.Step life life' ∧ task'.Shows life' := by
  obtain ⟨held, rfl⟩ := Life.status_running (shows.status.symm.trans running)
  exact ⟨_, .finish outcome, status, attempt.trans shows.attempt, lease, result, error, delivery⟩

/-- An event that fits is a step of the task's life. -/
theorem Fits.change_shows (fits : event.Fits task) (shows : task.Shows life) :
    ∃ life', Life.Step life life' ∧ (event.change eventTime task).Shows life' := by
  cases fits with
  | @claimed _ _ lease waiting =>
    obtain rfl := Life.status_pending (shows.status.symm.trans waiting)
    refine ⟨_, .claim lease, rfl, ?_, rfl, shows.result, shows.error, shows.delivery⟩
    show task.attempt + 1 = 1
    rw [shows.attempt]
    rfl
  | @heartbeat _ _ lease _ running held later =>
    obtain ⟨held', rfl⟩ := Life.status_running (shows.status.symm.trans running)
    have same : held' = lease := Option.some.inj (shows.lease.symm.trans held)
    subst same
    refine ⟨_, .extend later, running, shows.attempt, ?_, shows.result, shows.error,
      shows.delivery⟩
    simp [change, held, Life.lease]
  | @succeeded _ _ result running =>
    exact terminal_shows running shows (.succeeded result) rfl rfl rfl rfl rfl rfl
  | @failed _ _ error running =>
    have none : task.result = none := by
      obtain ⟨held, rfl⟩ := Life.status_running (shows.status.symm.trans running)
      exact shows.result
    exact terminal_shows running shows (.failed error) rfl rfl rfl none rfl rfl
  | @cancelled _ _ reason unfinished =>
    cases life with
    | waiting =>
      exact ⟨_, .cancel reason, rfl, shows.attempt, rfl, shows.result, rfl, rfl⟩
    | running lease =>
      exact terminal_shows shows.status shows (.cancelled reason) rfl rfl rfl shows.result rfl rfl
    | ended outcome claimed delivered =>
      rw [shows.status, Life.isTerminal_ended] at unfinished
      cases unfinished
  | @markedUnknown _ _ reason running =>
    have none : task.result = none := by
      obtain ⟨held, rfl⟩ := Life.status_running (shows.status.symm.trans running)
      exact shows.result
    exact terminal_shows running shows (.unknown reason) rfl rfl rfl none rfl rfl
  | deliveryAcknowledged ready =>
    rw [shows.delivery] at ready
    cases life with
    | waiting => cases ready
    | running lease => cases ready
    | ended outcome claimed delivered =>
      cases delivered with
      | true => cases ready
      | false =>
        exact ⟨_, .deliver, shows.status, shows.attempt, shows.lease, shows.result, shows.error,
          rfl⟩

end LedgerEvent

/-! ## Records in time -/

namespace TaskRecord

/-- One event of the ledger about the task. -/
def Step (task task' : TaskRecord) : Prop :=
  ∃ (event : LedgerEvent) (eventTime : Nat),
    event.Fits task ∧ task' = event.change eventTime task

/-- What becomes of a task. -/
abbrev Steps := Relation.ReflTransGen Step

variable {task task' : TaskRecord} {life : Life}

theorem Steps.sameTask (steps : Steps task task') : task.SameTask task' := by
  induction steps with
  | refl => exact .refl task
  | tail _ step ih =>
    obtain ⟨event, eventTime, fits, rfl⟩ := step
    exact ih.trans fits.sameTask

/-- The records follow the lives they show. -/
theorem Steps.shows (steps : Steps task task') (shows : task.Shows life) :
    ∃ life', Life.Steps life life' ∧ task'.Shows life' := by
  induction steps with
  | refl => exact ⟨life, .refl, shows⟩
  | tail _ step ih =>
    obtain ⟨event, eventTime, fits, rfl⟩ := step
    obtain ⟨middle, before, shown⟩ := ih
    obtain ⟨life', next, shown'⟩ := fits.change_shows shown
    exact ⟨life', before.tail next, shown'⟩

/-- A task that has ended keeps its status, result and error. -/
theorem Steps.of_terminal (steps : Steps task task') (shows : task.Shows life)
    (terminal : task.status.isTerminal = true) :
    task'.status = task.status ∧ task'.result = task.result ∧ task'.error = task.error := by
  rw [shows.status] at terminal
  obtain ⟨outcome, claimed, delivered, rfl⟩ := Life.status_terminal terminal
  obtain ⟨life', later, shown⟩ := steps.shows shows
  obtain ⟨delivered', rfl⟩ := later.of_ended
  exact ⟨shown.status.trans shows.status.symm, shown.result.trans shows.result.symm,
    shown.error.trans shows.error.symm⟩

end TaskRecord

end Nausicaa.TaskLedger
