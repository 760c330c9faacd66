import Nausicaa.Core.RecoveryPlan
import Nausicaa.Core.World

/-! # What `recover_thread` does

The loops of `recover_thread` append its plan, event by event (`recoverThread_eq`).
Run on a store, recovery is exact, does nothing the second time, and can be cut after
any append and run again.
-/

namespace Nausicaa.Core

open Interaction (Program)
open RecoveryState (scanLog)

/-- Append the events of a turn log, one after the other. -/
def appendAll (threadId : ThreadId) : TurnLog → Attempt StoreError Unit
  | [] => return ()
  | entry :: entries => do
    let _ ← appendToStore threadId entry.1 entry.2
    appendAll threadId entries

section Loops

variable (state : RecoveryState) (threadId : ThreadId)

theorem appendAll_append (first second : TurnLog) :
    appendAll threadId (first ++ second) =
      (do appendAll threadId first; appendAll threadId second) := by
  induction first with
  | nil => simp [appendAll]
  | cons entry first ih => simp [appendAll, ih]

theorem closeCalls_eq (keys : List CallKey) (report : RecoveryReport) :
    closeCalls state threadId keys report = do
      appendAll threadId ((keys.filterMap state.receiptFor).map
        fun entry => (entry.1, .toolReceiptRecorded entry.2))
      return { report with
        receiptsRecorded := report.receiptsRecorded ++
          (keys.filterMap state.receiptFor).map Prod.snd } := by
  induction keys generalizing report with
  | nil => simp [closeCalls, appendAll]
  | cons key keys ih =>
    unfold closeCalls
    split
    next completed =>
      rw [ih, List.filterMap_cons_none]
      simp [RecoveryState.receiptFor, completed]
    next uncompleted =>
      cases closes : state.closingReceipt key with
      | none =>
        have skipped : state.receiptFor key = none := by
          simp [RecoveryState.receiptFor, closes]
        simp only [ih, List.filterMap_cons_none skipped]
      | some receipt =>
        have given : state.receiptFor key = some (key.1, receipt) := by
          simp [RecoveryState.receiptFor, closes, uncompleted]
        simp [ih, List.filterMap_cons_some given, appendAll]

theorem failTurns_eq (turns : List TurnId) (report : RecoveryReport) :
    failTurns threadId turns report = do
      appendAll threadId (turns.map fun turnId => (turnId, .turnFailed interruptedTurn))
      return { report with turnsMarkedFailed := report.turnsMarkedFailed ++ turns } := by
  induction turns generalizing report with
  | nil => simp [failTurns, appendAll]
  | cons turnId turns ih => simp [failTurns, ih, appendAll]

/-- Recovery loads the log, appends its plan and reports it. -/
theorem recoverThread_eq : recoverThread threadId = do
    match ← perform (.loadThread threadId) with
    | .error error => throw error
    | .ok events =>
      appendAll threadId (scanLog (turnLog events)).plan
      return (scanLog (turnLog events)).report := by
  unfold recoverThread
  refine congrArg _ (funext fun answer => ?_)
  cases answer with
  | error error => rfl
  | ok events =>
    simp [RecoveryState.scan_eq, closeCalls_eq, failTurns_eq, RecoveryState.plan,
      RecoveryState.report, RecoveryState.receipts, appendAll_append]

end Loops

/-! ## Runs on a store -/

/-- Where a run is cut: after `appends` events the next one gets `failure`, or no
answer at all when the process ends there. -/
structure Cut where
  appends : Nat
  failure : Option StoreError

/-- An event store while recovery runs on it; without a `cut` it does not fail. -/
structure StoreRun where
  world : World
  cut : Option Cut

/-- The store's answers; `stamps` are the id and the time of each sequence number. -/
def StoreRun.handle (stamps : Nat → EventId × Nat) (store : StoreRun) :
    (op : Operation) → Option (Answer op) × StoreRun
  | .loadThread threadId => (some (.ok (store.world.log threadId)), store)
  | .storeAppend threadId turnId event =>
    let sequence := store.world.nextSequence
    let envelope : EventEnvelope :=
      ⟨(stamps sequence).1, sequence, (stamps sequence).2, threadId, turnId, event⟩
    match store.cut with
    | none => (some (.ok envelope), ⟨store.world.push envelope, none⟩)
    | some ⟨0, failure⟩ => (failure.map .error, store)
    | some ⟨appends + 1, failure⟩ =>
      (some (.ok envelope), ⟨store.world.push envelope, some ⟨appends, failure⟩⟩)
  | _ => (none, store)

/-- One run of `recover_thread`: its result, if it gets to one, and the store after it. -/
def recoverOn (stamps : Nat → EventId × Nat) (threadId : ThreadId) (store : StoreRun) :
    Option (Except StoreError RecoveryReport) × StoreRun :=
  (recoverThread threadId).run.run (StoreRun.handle stamps) store

/-- What an envelope says, without its id, sequence and time. -/
def EventEnvelope.content (envelope : EventEnvelope) : Option TurnId × RuntimeEvent :=
  (envelope.turnId, envelope.event)

/-- The world after storing the events of a turn log. -/
def World.store (stamps : Nat → EventId × Nat) (threadId : ThreadId) (world : World) :
    TurnLog → World
  | [] => world
  | entry :: entries =>
    let sequence := world.nextSequence
    (world.push ⟨(stamps sequence).1, sequence, (stamps sequence).2, threadId, some entry.1,
      entry.2⟩).store stamps threadId entries

section Runs

variable (stamps : Nat → EventId × Nat) (threadId : ThreadId) (world : World)

theorem store_events (entries : TurnLog) : ∃ appended,
    (world.store stamps threadId entries).events = world.events ++ appended ∧
      (∀ envelope ∈ appended, envelope.threadId = threadId) ∧
      appended.map EventEnvelope.content = entries.map fun entry => (some entry.1, entry.2) := by
  induction entries generalizing world with
  | nil => exact ⟨[], by simp [World.store]⟩
  | cons entry entries ih =>
    obtain ⟨appended, events, all, contents⟩ := ih (world.push ⟨(stamps world.nextSequence).1,
      world.nextSequence, (stamps world.nextSequence).2, threadId, some entry.1, entry.2⟩)
    refine ⟨_ :: appended, by simpa [World.store, World.push] using events, ?_, ?_⟩
    · intro envelope member
      cases List.mem_cons.mp member with
      | inl first => rw [first]
      | inr later => exact all envelope later
    · simp [contents, EventEnvelope.content]

theorem store_log (entries : TurnLog) : ∃ appended,
    (world.store stamps threadId entries).log threadId = world.log threadId ++ appended ∧
      appended.map EventEnvelope.content = entries.map fun entry => (some entry.1, entry.2) := by
  obtain ⟨appended, events, all, contents⟩ := store_events stamps threadId world entries
  refine ⟨appended, ?_, contents⟩
  have kept : appended.filter (fun envelope => envelope.threadId = threadId) = appended := by
    rw [List.filter_eq_self]
    intro envelope member
    simpa using all envelope member
  rw [World.log, events, List.filter_append, kept]
  rfl

theorem turnLog_of_content {events : List EventEnvelope} {entries : TurnLog}
    (contents : events.map EventEnvelope.content = entries.map fun entry => (some entry.1, entry.2)) :
    turnLog events = entries := by
  have asContent : turnLog events =
      (events.map EventEnvelope.content).filterMap fun content =>
        content.1.map fun turnId => (turnId, content.2) := by
    rw [List.filterMap_map]
    rfl
  rw [asContent, contents, List.filterMap_map]
  simp

theorem turnLog_store (entries : TurnLog) :
    turnLog ((world.store stamps threadId entries).log threadId) =
      turnLog (world.log threadId) ++ entries := by
  obtain ⟨appended, log, contents⟩ := store_log stamps threadId world entries
  rw [log, turnLog_append, turnLog_of_content contents]

theorem appendAll_run (entries : TurnLog) :
    (appendAll threadId entries).run.run (StoreRun.handle stamps) ⟨world, none⟩ =
      (some (.ok ()), ⟨world.store stamps threadId entries, none⟩) := by
  induction entries generalizing world with
  | nil => rfl
  | cons entry entries ih => exact ih _

/-- A cut run has stored a part of the events. -/
theorem appendAll_run_cut (entries : TurnLog) (cut : Cut) :
    ((appendAll threadId entries).run.run (StoreRun.handle stamps) ⟨world, some cut⟩).2.world =
      world.store stamps threadId (entries.take cut.appends) := by
  obtain ⟨appends, failure⟩ := cut
  induction entries generalizing world appends with
  | nil => simp [appendAll, World.store, ExceptT.run]; rfl
  | cons entry entries ih =>
    cases appends with
    | zero => cases failure <;> rfl
    | succ appends => exact ih _ appends

/-- A whole run on a store that does not fail. -/
theorem recoverOn_eq : recoverOn stamps threadId ⟨world, none⟩ =
    (some (.ok (scanLog (turnLog (world.log threadId))).report),
      ⟨world.store stamps threadId (scanLog (turnLog (world.log threadId))).plan, none⟩) := by
  rw [recoverOn, recoverThread_eq]
  show Program.run (StoreRun.handle stamps) ((appendAll threadId _).run >>= _) ⟨world, none⟩ = _
  rw [Program.run_bind, appendAll_run]
  rfl

/-- A cut run leaves a part of the plan in the store. -/
theorem recoverOn_cut (cut : Cut) : (recoverOn stamps threadId ⟨world, some cut⟩).2.world =
    world.store stamps threadId
      ((scanLog (turnLog (world.log threadId))).plan.take cut.appends) := by
  rw [← appendAll_run_cut, recoverOn, recoverThread_eq]
  show (Program.run (StoreRun.handle stamps) ((appendAll threadId _).run >>= _)
    ⟨world, some cut⟩).2.world = _
  rw [Program.run_bind]
  split
  next same => rw [same]
  next result _ same =>
    rw [same]
    cases result <;> rfl

end Runs

/-- The receipts and failures that close a log, each once and nothing else. -/
structure ExactClosing (log : TurnLog) (receipts : List (TurnId × ToolReceipt))
    (turns : List TurnId) : Prop where
  once : (receipts.map fun entry => (entry.1, entry.2.callId)).Nodup
  closes : ∀ turnId callId,
    (∃ receipt, (turnId, receipt) ∈ receipts ∧ receipt.callId = callId) ↔
      Mentioned log turnId callId ∧ ¬ Receipted log turnId callId
  unknown : ∀ turnId receipt, (turnId, receipt) ∈ receipts → (receipt.status = .unknown ↔
    ∃ prepared, Started log turnId prepared ∧ prepared.callId = receipt.callId)
  failed : ∀ turnId receipt, (turnId, receipt) ∈ receipts →
    receipt.status = .unknown ∨ receipt.status = .failed
  turnsOnce : turns.Nodup
  fails : ∀ turnId, turnId ∈ turns ↔ Unfinished log turnId

theorem exactClosing (log : TurnLog) :
    ExactClosing log (scanLog log).receipts (scanLog log).openTurns.toList where
  once := (RecoveryState.scanned log).receipts_nodup
  closes turnId callId := (RecoveryState.scanned log).receipts_iff
  unknown turnId receipt member := by
    obtain ⟨_, _, closes⟩ := (RecoveryState.scanned log).mem_receipts member
    obtain ⟨same, started | ⟨unstarted, failed, _⟩⟩ :=
      (RecoveryState.scanned log).closingReceipt closes
    · obtain ⟨action, starts, sameId, _, _, unknown⟩ := started
      exact ⟨fun _ => ⟨action, starts, sameId⟩, fun _ => unknown⟩
    · constructor
      · intro unknown
        rw [failed] at unknown
        cases unknown
      · intro ⟨action, starts, sameId⟩
        exact absurd sameId (unstarted action starts)
  failed turnId receipt member := by
    obtain ⟨_, _, closes⟩ := (RecoveryState.scanned log).mem_receipts member
    obtain ⟨_, ⟨_, _, _, _, _, unknown⟩ | ⟨_, failed, _⟩⟩ :=
      (RecoveryState.scanned log).closingReceipt closes
    · exact .inl unknown
    · exact .inr failed
  turnsOnce := RecoveryState.openTurns_nodup _
  fails turnId := by
    rw [Std.TreeSet.mem_toList]
    exact (RecoveryState.scanned log).openTurns turnId

/-- Recovery of an arbitrary log is exact, idempotent and restartable: it appends the
closing receipts and failures and nothing else, a second run appends nothing, and a
run that was cut anywhere and then repeated leaves the same events. -/
theorem recoverThread_exact (stamps : Nat → EventId × Nat) (threadId : ThreadId) (world : World) :
    ∃ (receipts : List (TurnId × ToolReceipt)) (turns : List TurnId) (world' : World),
      recoverOn stamps threadId ⟨world, none⟩ =
        (some (.ok ⟨receipts.map Prod.snd, turns⟩), ⟨world', none⟩) ∧
      (∃ appended, world'.events = world.events ++ appended ∧
        (∀ envelope ∈ appended, envelope.threadId = threadId) ∧
        appended.map EventEnvelope.content =
          (receipts.map fun entry => (some entry.1, .toolReceiptRecorded entry.2)) ++
            turns.map fun turnId => (some turnId, .turnFailed interruptedTurn)) ∧
      ExactClosing (turnLog (world.log threadId)) receipts turns ∧
      (∀ stamps', recoverOn stamps' threadId ⟨world', none⟩ =
        (some (.ok ⟨[], []⟩), ⟨world', none⟩)) ∧
      ∀ cut stamps', ∃ report world'',
        recoverOn stamps' threadId
            ⟨(recoverOn stamps threadId ⟨world, some cut⟩).2.world, none⟩ =
          (some (.ok report), ⟨world'', none⟩) ∧
        (world''.log threadId).map EventEnvelope.content =
          (world'.log threadId).map EventEnvelope.content := by
  obtain ⟨log, isLog⟩ : ∃ log, log = turnLog (world.log threadId) := ⟨_, rfl⟩
  refine ⟨(scanLog log).receipts, (scanLog log).openTurns.toList,
    world.store stamps threadId (scanLog log).plan, ?_, ?_, ?_, ?_, ?_⟩
  · rw [recoverOn_eq, isLog]
    rfl
  · obtain ⟨appended, events, all, contents⟩ :=
      store_events stamps threadId world (scanLog log).plan
    refine ⟨appended, events, all, ?_⟩
    rw [contents, RecoveryState.plan, List.map_append, List.map_map, List.map_map]
    rfl
  · rw [← isLog]
    exact exactClosing log
  · intro stamps'
    have done := RecoveryState.plan_append (List.append_nil (scanLog log).plan).symm
    obtain ⟨receipts, turns⟩ := List.append_eq_nil_iff.mp done
    rw [recoverOn_eq, turnLog_store, ← isLog, done]
    simp [RecoveryState.report, List.map_eq_nil_iff.mp receipts, List.map_eq_nil_iff.mp turns,
      World.store]
  · intro cut stamps'
    have rest := RecoveryState.plan_append
      (List.take_append_drop cut.appends (scanLog log).plan).symm
    refine ⟨_, _, recoverOn_eq stamps' threadId _, ?_⟩
    rw [recoverOn_cut, turnLog_store, ← isLog, rest]
    obtain ⟨whole, wholeLog, wholeContents⟩ := store_log stamps threadId world (scanLog log).plan
    obtain ⟨first, firstLog, firstContents⟩ :=
      store_log stamps threadId world ((scanLog log).plan.take cut.appends)
    obtain ⟨second, secondLog, secondContents⟩ := store_log stamps' threadId
      (world.store stamps threadId ((scanLog log).plan.take cut.appends))
      ((scanLog log).plan.drop cut.appends)
    rw [secondLog, firstLog, wholeLog, List.map_append, List.map_append, List.map_append,
      wholeContents, firstContents, secondContents, List.append_assoc, ← List.map_append,
      List.take_append_drop]

end Nausicaa.Core
