import Nausicaa.Core.RecoverySpec
import Nausicaa.Store.Sessions

/-! # Recovery on a file

`recover_thread` run on a `JsonlEventStore`, where the process may end within any append of it, and
end again in the recovery after that.  The recovery that ends well leaves the thread with the events
that one recovery without a fault gives (`recovers_crashed`). -/

namespace Nausicaa.Store.JsonlEventStore

open Nausicaa.Core
open RecoveryState (scanLog)

/-- What an append of this number is stamped with. -/
def stamp (stamps : Nat → EventId × Nat) (sequence : Nat) (threadId : ThreadId)
    (turnId : Option TurnId) (event : RuntimeEvent) : Append :=
  ⟨(stamps sequence).1, (stamps sequence).2, threadId, turnId, event⟩

/-- Behind so many appends one fails; recovery is told of it, or the process ends there. -/
structure Crash where
  appends : Nat
  fault : Fault
  told : Bool

/-- The session behind an append. -/
def Session.appended (codec : Codec) (session : Session) (entry : Append) (fault : Option Fault) :
    Session :=
  match session.store.append codec session.disk entry fault with
  | (.ok envelope, store, disk) => ⟨store, disk, session.log ++ [envelope]⟩
  | (.error _, store, disk) => ⟨store, disk, session.log ++ session.reached codec entry fault⟩

/-- A session while recovery runs on it. -/
structure Recovering where
  session : Session
  crash : Option Crash

/-- The answers of the store, which is the one of the session. -/
def Recovering.handle (codec : Codec) (stamps : Nat → EventId × Nat) (recovering : Recovering) :
    (op : Operation) → Option (Answer op) × Recovering
  | .loadThread threadId =>
    (some (.ok (recovering.session.store.loadThread threadId)), recovering)
  | .storeAppend threadId turnId event =>
    let session := recovering.session
    let entry := stamp stamps session.store.nextSequence threadId turnId event
    match recovering.crash with
    | none =>
      (some (session.store.append codec session.disk entry none).1,
        ⟨session.appended codec entry none, none⟩)
    -- A process that ends has no answer, and one that goes on has the error.
    | some ⟨0, fault, told⟩ =>
      (if told then some (session.store.append codec session.disk entry (some fault)).1 else none,
        ⟨session.appended codec entry (some fault), recovering.crash⟩)
    | some ⟨appends + 1, fault, told⟩ =>
      (some (session.store.append codec session.disk entry none).1,
        ⟨session.appended codec entry none, some ⟨appends, fault, told⟩⟩)
  -- Recovery asks for nothing else.
  | _ => (none, recovering)

/-- One run of `recover_thread` on a session, with or without a crash. -/
def recoverOnDisk (codec : Codec) (stamps : Nat → EventId × Nat) (threadId : ThreadId)
    (session : Session) (crash : Option Crash) :
    Option (Except StoreError RecoveryReport) × Session :=
  let (result, recovering) :=
    (recoverThread threadId).run.run (Recovering.handle codec stamps) ⟨session, crash⟩
  (result, recovering.session)

section Recovery

variable {codec : Codec} {known : EventEnvelope → Prop} {session : Session} {bound : Nat}
variable {stamps : Nat → EventId × Nat} {threadId : ThreadId} {entries : TurnLog}

/-! ## Single appends -/

theorem Session.step_append (entry : Append) (fault : Option Fault) :
    session.step codec (.append entry fault) = .ok (session.appended codec entry fault) := by
  rw [Session.step, Session.appended]
  rcases session.store.append codec session.disk entry fault with ⟨answer, store, disk⟩
  cases answer with
  | ok envelope => rfl
  | error error => rfl

theorem Session.appended_none {entry : Append} (running : session.store.writeFailed = false) :
    session.appended codec entry none = session.acknowledge codec entry := by
  have stepped : session.step codec (.append entry none) = _ := Session.step_append entry none
  rw [Session.step_acknowledge codec running] at stepped
  exact (Except.ok.inj stepped).symm

theorem append_none {entry : Append} (running : session.store.writeFailed = false) :
    (session.store.append codec session.disk entry none).1 =
      .ok (entry.envelope session.store.nextSequence) := by
  simp [JsonlEventStore.append, running]

/-- A session that can be written: its numbers are below the next one. -/
structure Session.Ready (codec : Codec) (known : EventEnvelope → Prop) (session : Session) :
    Prop where
  intact : session.Intact codec known session.store.nextSequence
  running : session.store.writeFailed = false

theorem Session.Intact.ready (intact : session.Intact codec known bound)
    (running : session.store.writeFailed = false) : session.Ready codec known where
  intact := { intact with
    counted := fun event member => intact.below event member running
    next := Nat.le_refl _ }
  running := running

theorem Session.Ready.acknowledge (ready : session.Ready codec known) {entry : Append}
    (question : known (entry.envelope session.store.nextSequence)) :
    (session.acknowledge codec entry).Ready codec known := by
  obtain ⟨session', stepped, intact⟩ : ∃ session', session.step codec (.append entry none) =
      .ok session' ∧ session'.Intact codec known (session.store.nextSequence + 1) :=
    ready.intact.append question
  rw [Session.step_acknowledge codec ready.running] at stepped
  cases stepped
  exact ⟨intact, ready.running⟩

theorem Session.Ready.loadThread (ready : session.Ready codec known) (threadId : ThreadId) :
    session.store.loadThread threadId =
      session.log.filter fun event => event.threadId = threadId := by
  rw [JsonlEventStore.loadThread, (ready.intact.healthy ready.running).2]

/-! ## The appends of a recovery -/

/-- The append of an entry of a turn log. -/
def Session.closing (stamps : Nat → EventId × Nat) (threadId : ThreadId) (session : Session)
    (entry : TurnEntry) : Append :=
  stamp stamps session.store.nextSequence threadId (some entry.1) entry.2

/-- The session behind the appends of a turn log. -/
def Session.close (codec : Codec) (stamps : Nat → EventId × Nat) (threadId : ThreadId) :
    Session → TurnLog → Session
  | session, [] => session
  | session, entry :: entries =>
    (session.acknowledge codec (session.closing stamps threadId entry)).close
      codec stamps threadId entries

/-- The events that may be appended can be read back, whichever number of these they get. -/
def Closes (known : EventEnvelope → Prop) (stamps : Nat → EventId × Nat) (threadId : ThreadId)
    (entries : TurnLog) (limit : Nat) : Prop :=
  ∀ entry ∈ entries, ∀ sequence < limit,
    known ((stamp stamps sequence threadId (some entry.1) entry.2).envelope sequence)

theorem Closes.head {entry : TurnEntry}
    (closes : Closes known stamps threadId (entry :: entries)
      (session.store.nextSequence + (entry :: entries).length)) :
    known ((session.closing stamps threadId entry).envelope session.store.nextSequence) :=
  closes entry List.mem_cons_self session.store.nextSequence (by simp)

theorem Closes.tail {entry : TurnEntry} {next : Nat}
    (closes : Closes known stamps threadId (entry :: entries) (next + (entry :: entries).length)) :
    Closes known stamps threadId entries (next + 1 + entries.length) := by
  intro entry' member sequence less
  refine closes entry' (List.mem_cons_of_mem _ member) sequence ?_
  rw [List.length_cons]
  omega

theorem Session.Ready.close (ready : session.Ready codec known)
    (closes : Closes known stamps threadId entries
      (session.store.nextSequence + entries.length)) :
    (session.close codec stamps threadId entries).Ready codec known ∧
      (session.close codec stamps threadId entries).store.nextSequence =
        session.store.nextSequence + entries.length := by
  induction entries generalizing session with
  | nil => exact ⟨ready, rfl⟩
  | cons entry entries ih =>
    obtain ⟨closed, next⟩ := ih (ready.acknowledge closes.head) closes.tail
    have counted : (session.acknowledge codec
        (session.closing stamps threadId entry)).store.nextSequence =
          session.store.nextSequence + 1 := rfl
    refine ⟨closed, next.trans ?_⟩
    rw [counted, List.length_cons]
    omega

variable (codec stamps threadId) in
theorem Session.close_log (session : Session) (entries : TurnLog) : ∃ appended,
    (session.close codec stamps threadId entries).log = session.log ++ appended ∧
      (∀ envelope ∈ appended, envelope.threadId = threadId) ∧
      appended.map EventEnvelope.content = entries.map fun entry => (some entry.1, entry.2) := by
  induction entries generalizing session with
  | nil => exact ⟨[], by simp [Session.close]⟩
  | cons entry entries ih =>
    obtain ⟨appended, log, all, contents⟩ :=
      ih (session.acknowledge codec (session.closing stamps threadId entry))
    refine ⟨_ :: appended, by simpa [Session.close, Session.acknowledge] using log, ?_, ?_⟩
    · intro envelope member
      cases List.mem_cons.mp member with
      | inl first =>
        rw [first]
        rfl
      | inr later => exact all envelope later
    · rw [List.map_cons, contents]
      rfl

variable (threadId entries) in
theorem appendAll_cons (entry : TurnEntry) :
    (appendAll threadId (entry :: entries)).run =
      .ask (.storeAppend threadId (some entry.1) entry.2) fun
        | .ok _ => (appendAll threadId entries).run
        | .error error => .done (.error error) := by
  refine congrArg (Interaction.Program.ask _) (funext fun answer => ?_)
  cases answer with
  | ok envelope => rfl
  | error error => rfl

/-- An append before the one that fails is answered, and recovery goes on. -/
theorem run_appendAll_cons (entry : TurnEntry) {crash next : Option Crash}
    (running : session.store.writeFailed = false)
    (goes : crash = none ∧ next = none ∨ ∃ appends fault told,
      crash = some ⟨appends + 1, fault, told⟩ ∧ next = some ⟨appends, fault, told⟩) :
    (appendAll threadId (entry :: entries)).run.run (Recovering.handle codec stamps)
        ⟨session, crash⟩ =
      (appendAll threadId entries).run.run (Recovering.handle codec stamps)
        ⟨session.acknowledge codec (session.closing stamps threadId entry), next⟩ := by
  have answered : Recovering.handle codec stamps ⟨session, crash⟩
      (.storeAppend threadId (some entry.1) entry.2) =
      (some (.ok ((session.closing stamps threadId entry).envelope session.store.nextSequence)),
        ⟨session.acknowledge codec (session.closing stamps threadId entry), next⟩) := by
    obtain ⟨rfl, rfl⟩ | ⟨appends, fault, told, rfl, rfl⟩ := goes
    · simp only [Recovering.handle, append_none running, Session.appended_none running]
      rfl
    · simp only [Recovering.handle, append_none running, Session.appended_none running]
      rfl
  rw [appendAll_cons, Interaction.Program.run, answered]

/-- What a recovery in a process that goes on appends. -/
theorem run_appendAll (running : session.store.writeFailed = false) :
    (appendAll threadId entries).run.run (Recovering.handle codec stamps) ⟨session, none⟩ =
      (some (.ok ()), ⟨session.close codec stamps threadId entries, none⟩) := by
  induction entries generalizing session with
  | nil => rfl
  | cons entry entries ih =>
    rw [run_appendAll_cons entry running (.inl ⟨rfl, rfl⟩)]
    exact ih running

theorem Session.appended_log {entry : Append} {fault : Fault}
    (running : session.store.writeFailed = false) :
    (session.appended codec entry (some fault)).log = session.log ++
      if (codec.encode (entry.envelope session.store.nextSequence)).length ≤ fault.written then
        [entry.envelope session.store.nextSequence] else [] := by
  simp [Session.appended, JsonlEventStore.append, running, Session.reached]

/-- The append that fails is the last one, whether it is told of or not. -/
theorem run_appendAll_failed (entry : TurnEntry) (fault : Fault) (told : Bool)
    (running : session.store.writeFailed = false) :
    ((appendAll threadId (entry :: entries)).run.run (Recovering.handle codec stamps)
      ⟨session, some ⟨0, fault, told⟩⟩).2.session =
        session.appended codec (session.closing stamps threadId entry) (some fault) := by
  rw [appendAll_cons, Interaction.Program.run]
  cases told with
  | false => rfl
  | true =>
    -- `?` gives the error on, and no append follows.
    have refused : (session.store.append codec session.disk
        (stamp stamps session.store.nextSequence threadId (some entry.1) entry.2)
        (some fault)).1 = .error (.io fault.message) := by
      simp [JsonlEventStore.append, running]
    simp only [Recovering.handle, refused, if_true]
    rfl

/-- Where an append fails, a part of the events is in the log. -/
theorem run_appendAll_crash (crash : Crash) (ready : session.Ready codec known)
    (closes : Closes known stamps threadId entries
      (session.store.nextSequence + entries.length)) :
    ∃ count bound, ((appendAll threadId entries).run.run (Recovering.handle codec stamps)
        ⟨session, some crash⟩).2.session.log =
          (session.close codec stamps threadId (entries.take count)).log ∧
      ((appendAll threadId entries).run.run (Recovering.handle codec stamps)
        ⟨session, some crash⟩).2.session.Intact codec known bound := by
  obtain ⟨appends, fault, told⟩ := crash
  -- On the entries, with any session that is ready and any count of appends before the failure.
  induction entries generalizing session appends with
  | nil => exact ⟨0, _, rfl, ready.intact⟩
  | cons entry entries ih =>
    cases appends with
    | zero =>
      obtain ⟨session', stepped, intact⟩ : ∃ session', session.step codec
          (.append (session.closing stamps threadId entry) (some fault)) = .ok session' ∧
          session'.Intact codec known (session.store.nextSequence + 1) :=
        ready.intact.append closes.head
      rw [Session.step_append] at stepped
      cases stepped
      rw [run_appendAll_failed entry fault told ready.running]
      -- The event is in the log exactly if its whole record has reached the file.
      by_cases whole : (codec.encode ((session.closing stamps threadId entry).envelope
          session.store.nextSequence)).length ≤ fault.written
      · refine ⟨1, _, ?_, intact⟩
        rw [Session.appended_log ready.running, if_pos whole]
        rfl
      · refine ⟨0, _, ?_, intact⟩
        rw [Session.appended_log ready.running, if_neg whole, List.append_nil]
        rfl
    | succ appends =>
      obtain ⟨count, bound, log, intact⟩ :=
        ih (ready.acknowledge closes.head) closes.tail appends
      rw [run_appendAll_cons entry ready.running (.inr ⟨appends, fault, told, rfl, rfl⟩)]
      exact ⟨count + 1, bound, log, intact⟩

/-! ## Whole recoveries -/

/-- What `recover_thread` appends to this session. -/
def Session.plan (session : Session) (threadId : ThreadId) : TurnLog :=
  (scanLog (turnLog (session.store.loadThread threadId))).plan

variable (threadId) in
theorem recoverThread_asks : (recoverThread threadId).run = .ask (.loadThread threadId) fun
    | .ok events => (appendAll threadId (scanLog (turnLog events)).plan).run >>= fun
      | .ok _ => .done (.ok (scanLog (turnLog events)).report)
      | .error error => .done (.error error)
    | .error error => .done (.error error) := by
  rw [recoverThread_eq]
  refine congrArg (Interaction.Program.ask _) (funext fun answer => ?_)
  cases answer with
  | error error => rfl
  | ok events =>
    refine congrArg ((appendAll threadId (scanLog (turnLog events)).plan).run >>= ·)
      (funext fun result => ?_)
    cases result with
    | ok _ => rfl
    | error error => rfl

theorem recoverOnDisk_eq (running : session.store.writeFailed = false) :
    recoverOnDisk codec stamps threadId session none =
      (some (.ok (scanLog (turnLog (session.store.loadThread threadId))).report),
        session.close codec stamps threadId (session.plan threadId)) := by
  rw [recoverOnDisk, recoverThread_asks, Interaction.Program.run]
  simp only [Recovering.handle]
  rw [← Session.plan, Interaction.Program.run_bind, run_appendAll running]
  rfl

theorem recoverOnDisk_crash (crash : Crash) :
    (recoverOnDisk codec stamps threadId session (some crash)).2 =
      ((appendAll threadId (session.plan threadId)).run.run (Recovering.handle codec stamps)
        ⟨session, some crash⟩).2.session := by
  rw [recoverOnDisk, recoverThread_asks, Interaction.Program.run]
  simp only [Recovering.handle]
  rw [← Session.plan, Interaction.Program.run_bind]
  split
  next same => rw [same]
  next result _ same =>
    rw [same]
    cases result with
    | ok _ => rfl
    | error error => rfl

/-- A session that is opened again can be written, and has the same log. -/
theorem Session.Intact.opened (faithful : codec.Faithful known)
    (intact : session.Intact codec known bound) :
    ∃ opened, session.step codec .reopen = .ok opened ∧ opened.Ready codec known ∧
      opened.log = session.log ∧ ∀ limit, (∀ event ∈ session.log, event.sequence < limit) →
        opened.store.nextSequence ≤ limit := by
  obtain ⟨tail, archives, opens⟩ :=
    intact.holds.opens faithful intact.questions session.disk.archives
  obtain ⟨opened, stepped, intact'⟩ := intact.reopen faithful
  rw [Session.step, opens] at stepped
  cases stepped
  exact ⟨_, by rw [Session.step, opens], intact'.ready rfl, rfl,
    fun _ counted => next_le counted⟩

theorem Session.run_concat {session middle : Session} {actions : List Action}
    (ran : session.run codec actions = .ok middle) (action : Action) :
    session.run codec (actions ++ [action]) = middle.step codec action := by
  induction actions generalizing session with
  | nil =>
    cases ran
    rw [List.nil_append, Session.run]
    cases middle.step codec action with
    | ok session' => rfl
    | error error => rfl
  | cons first actions ih =>
    rw [Session.run] at ran
    rw [List.cons_append, Session.run]
    cases stepped : session.step codec first with
    | error error =>
      rw [stepped] at ran
      cases ran
    | ok next =>
      rw [stepped] at ran
      exact ih ran

/-- Events of one thread are appended to that thread only. -/
theorem Session.Ready.loads {later : Session} {appended : List EventEnvelope}
    (ready : session.Ready codec known) (readyLater : later.Ready codec known)
    (log : later.log = session.log ++ appended)
    (all : ∀ envelope ∈ appended, envelope.threadId = threadId) :
    later.store.loadThread threadId = session.store.loadThread threadId ++ appended ∧
      ∀ other, other ≠ threadId →
        later.store.loadThread other = session.store.loadThread other := by
  constructor
  · have kept : appended.filter (fun event => event.threadId = threadId) = appended := by
      rw [List.filter_eq_self]
      intro envelope member
      simpa using all envelope member
    rw [readyLater.loadThread, log, List.filter_append, kept, ready.loadThread]
  · intro other apart
    have nothing : appended.filter (fun event => event.threadId = other) = [] := by
      rw [List.filter_eq_nil_iff]
      intro envelope member
      rw [all envelope member]
      simpa using apart.symm
    rw [readyLater.loadThread, log, List.filter_append, nothing, List.append_nil,
      ready.loadThread]

/-- What a turn log leaves of its entries in the events. -/
def contents (entries : TurnLog) : List (Option TurnId × RuntimeEvent) :=
  entries.map fun entry => (some entry.1, entry.2)

/-- A later session of the file: a first part of what there was to append is in the log, and the
rest of it is still to be appended. -/
structure Session.Rests (codec : Codec) (known : EventEnvelope → Prop) (threadId : ThreadId)
    (session later : Session) : Prop where
  ready : later.Ready codec known
  parts : ∃ written appended, session.plan threadId = written ++ later.plan threadId ∧
    later.log = session.log ++ appended ∧
    (∀ envelope ∈ appended, envelope.threadId = threadId) ∧
    appended.map EventEnvelope.content = contents written
  numbers : later.store.nextSequence + (later.plan threadId).length ≤
    session.store.nextSequence + (session.plan threadId).length

theorem Session.Rests.refl (ready : session.Ready codec known) :
    Session.Rests codec known threadId session session :=
  ⟨ready, ⟨[], [], by simp [contents]⟩, Nat.le_refl _⟩

theorem Session.Rests.trans {middle later : Session}
    (first : Session.Rests codec known threadId session middle)
    (second : Session.Rests codec known threadId middle later) :
    Session.Rests codec known threadId session later := by
  obtain ⟨written, appended, plan, log, all, same⟩ := first.parts
  obtain ⟨written', appended', plan', log', all', same'⟩ := second.parts
  refine ⟨second.ready, ⟨written ++ written', appended ++ appended', ?_, ?_, ?_, ?_⟩,
    Nat.le_trans second.numbers first.numbers⟩
  · rw [plan, plan', List.append_assoc]
  · rw [log', log, List.append_assoc]
  · intro envelope member
    cases List.mem_append.mp member with
    | inl early => exact all envelope early
    | inr late => exact all' envelope late
  · rw [List.map_append, same, same', contents, contents, contents, List.map_append]

theorem Closes.rests {later : Session}
    (closes : Closes known stamps threadId (session.plan threadId)
      (session.store.nextSequence + (session.plan threadId).length))
    (rests : Session.Rests codec known threadId session later) :
    Closes known stamps threadId (later.plan threadId)
      (later.store.nextSequence + (later.plan threadId).length) := by
  obtain ⟨written, _, plan, _⟩ := rests.parts
  intro entry member sequence less
  refine closes entry ?_ sequence (Nat.lt_of_lt_of_le less rests.numbers)
  rw [plan]
  exact List.mem_append_right _ member

/-- What a crash leaves, opened again. -/
theorem Session.Ready.crash (faithful : codec.Faithful known) (ready : session.Ready codec known)
    (closes : Closes known stamps threadId (session.plan threadId)
      (session.store.nextSequence + (session.plan threadId).length)) (crash : Crash) :
    ∃ opened, (recoverOnDisk codec stamps threadId session (some crash)).2.step codec .reopen =
        .ok opened ∧ Session.Rests codec known threadId session opened := by
  obtain ⟨count, bound, crashed, intact⟩ := run_appendAll_crash crash ready closes
  rw [← recoverOnDisk_crash] at crashed intact
  have partCloses : Closes known stamps threadId ((session.plan threadId).take count)
      (session.store.nextSequence + ((session.plan threadId).take count).length) :=
    fun entry member sequence less => closes entry (List.mem_of_mem_take member) sequence
      (Nat.lt_of_lt_of_le less (Nat.add_le_add_left (List.length_take_le' _ _) _))
  obtain ⟨part, partNext⟩ := ready.close partCloses
  obtain ⟨opened, stepped, openedReady, openedLog, openedNext⟩ := intact.opened faithful
  obtain ⟨appended, log, all, same⟩ :=
    session.close_log codec stamps threadId ((session.plan threadId).take count)
  rw [crashed] at openedLog openedNext
  rw [log] at openedLog
  have loaded := (ready.loads openedReady openedLog all).1
  -- The plan of a log that has a first part of its plan is the other part.
  have rest : opened.plan threadId = (session.plan threadId).drop count := by
    rw [Session.plan, loaded, turnLog_append, turnLog_of_content same]
    exact RecoveryState.plan_append (List.take_append_drop count _).symm
  -- The numbers of what is left are among those that the whole plan could get.
  refine ⟨opened, stepped, openedReady, ⟨(session.plan threadId).take count, appended, ?_,
    openedLog, all, same⟩, ?_⟩
  · rw [rest, List.take_append_drop]
  · have next := openedNext _ part.intact.counted
    have lengths := congrArg List.length (List.take_append_drop count (session.plan threadId))
    rw [List.length_append] at lengths
    rw [partNext] at next
    rw [rest]
    omega

/-- What a recovery that ends without a crash leaves. -/
theorem Session.Ready.whole (ready : session.Ready codec known)
    (closes : Closes known stamps threadId (session.plan threadId)
      (session.store.nextSequence + (session.plan threadId).length)) :
    ∃ whole, recoverOnDisk codec stamps threadId session none =
        (some (.ok (scanLog (turnLog (session.store.loadThread threadId))).report), whole) ∧
      whole.Ready codec known ∧ ∃ appended, whole.log = session.log ++ appended ∧
        (∀ envelope ∈ appended, envelope.threadId = threadId) ∧
        appended.map EventEnvelope.content = contents (session.plan threadId) := by
  obtain ⟨appended, log, all, same⟩ :=
    session.close_log codec stamps threadId (session.plan threadId)
  exact ⟨_, recoverOnDisk_eq ready.running, (ready.close closes).1, appended, log, all, same⟩

/-- Recoveries that crash, one after the other; the store is opened again after each. -/
def recoverCrashing (codec : Codec) (threadId : ThreadId) :
    Session → List ((Nat → EventId × Nat) × Crash) → Except StoreError Session
  | session, [] => .ok session
  | session, (stamps, crash) :: attempts =>
    match (recoverOnDisk codec stamps threadId session (some crash)).2.step codec .reopen with
    | .ok opened => recoverCrashing codec threadId opened attempts
    | .error error => .error error

theorem Session.Ready.crashes (faithful : codec.Faithful known)
    (attempts : List ((Nat → EventId × Nat) × Crash)) (ready : session.Ready codec known)
    (closes : ∀ attempt ∈ attempts, Closes known attempt.1 threadId (session.plan threadId)
      (session.store.nextSequence + (session.plan threadId).length)) :
    ∃ later, recoverCrashing codec threadId session attempts = .ok later ∧
      Session.Rests codec known threadId session later := by
  induction attempts generalizing session with
  | nil => exact ⟨session, rfl, Session.Rests.refl ready⟩
  | cons attempt attempts ih =>
    obtain ⟨opened, stepped, rests⟩ :=
      ready.crash faithful (closes attempt List.mem_cons_self) attempt.2
    obtain ⟨later, ran, rests'⟩ := ih rests.ready fun attempt' member =>
      (closes attempt' (List.mem_cons_of_mem _ member)).rests rests
    refine ⟨later, ?_, rests.trans rests'⟩
    rw [recoverCrashing, stepped]
    exact ran

/-- The last action of a session is to open it again. -/
theorem created_ready (faithful : codec.Faithful known) (actions : List Action)
    (questions : ∀ entry fault, .append entry fault ∈ actions →
      ∀ sequence < actions.length, known (entry.envelope sequence))
    (ran : Session.created.run codec (actions ++ [.reopen]) = .ok session) :
    session.Ready codec known := by
  obtain ⟨middle, ran', intact⟩ := created_intact.run faithful (by simpa using questions)
  obtain ⟨opened, stepped, ready, _⟩ := intact.opened faithful
  rw [Session.run_concat ran', stepped] at ran
  cases ran
  exact ready

end Recovery

/-! ## A turn that a crash interrupts -/

namespace Sample

def interrupted : Append := ⟨⟨"e"⟩, 0, ⟨"t"⟩, some ⟨"u"⟩, .turnStarted⟩

def closing : Append := ⟨⟨"e"⟩, 0, ⟨"t"⟩, some ⟨"u"⟩, .turnFailed interruptedTurn⟩

def interruptedText : Bytes :=
  ("\x7b\"id\":\"e\",\"sequence\":0,\"at_unix_ms\":0,\"thread_id\":\"t\",\"turn_id\":\"u\"," ++
    "\"event\":\x7b\"type\":\"turn_started\"\x7d\x7d").toUTF8.data.toList

def closingText (sequence : String) : Bytes :=
  ("\x7b\"id\":\"e\",\"sequence\":" ++ sequence ++ ",\"at_unix_ms\":0,\"thread_id\":\"t\"," ++
    "\"turn_id\":\"u\",\"event\":\x7b\"type\":\"turn_failed\",\"error\":\"" ++ interruptedTurn ++
    "\"\x7d\x7d").toUTF8.data.toList

/-- The events of the thread, with their texts. -/
def texts : List (EventEnvelope × Bytes) :=
  [(interrupted.envelope 0, interruptedText), (closing.envelope 0, closingText "0"),
    (closing.envelope 1, closingText "1")]

/-- What serde_json does with them. -/
def codec : Codec where
  encode event := ((texts.find? fun row => row.1 = event).map Prod.snd).getD []
  decode bytes :=
    match texts.find? fun row => bytes.rdropWhile (· == newline) = row.2 with
    | some row => .ok row.1
    | none => .error ⟨texts.any fun row => bytes.isPrefixOf row.2, "not an envelope"⟩

/-- No text begins another one. -/
theorem texts_apart : ∀ row ∈ texts, ∀ row' ∈ texts, row.2 <+: row'.2 →
    row.2.length = row'.2.length := by decide +kernel

theorem texts_encoded : ∀ row ∈ texts, codec.encode row.1 = row.2 := by decide +kernel

theorem codec_faithful : codec.Faithful fun event => ∃ row ∈ texts, event = row.1 where
  decodes := by
    rintro _ ⟨row, member, rfl⟩
    have decoded : ∀ row ∈ texts, codec.decode row.2 = .ok row.1 := by decide +kernel
    rw [texts_encoded row member]
    exact decoded row member
  oneLine := by
    rintro _ ⟨row, member, rfl⟩
    have oneLine : ∀ row ∈ texts, newline ∉ row.2 := by decide +kernel
    rw [texts_encoded row member]
    exact oneLine row member
  object := by
    rintro _ ⟨row, member, rfl⟩
    have object : ∀ row ∈ texts, row.2.head? = some 0x7B := by decide
    rw [texts_encoded row member]
    exact object row member
  prefixes := by
    rintro _ ⟨row, member, rfl⟩ length some part
    rw [texts_encoded row member] at part ⊢
    have unknown : texts.find? (fun row' =>
        (row.2.take length).rdropWhile (· == newline) = row'.2) = none := by
      rw [List.find?_eq_none]
      intro row' member' same
      -- A text that a part of the row is would begin the row.
      have begins := (List.rdropWhile_prefix (fun byte => byte == newline)
        (row.2.take length)).trans (List.take_prefix _ _)
      have short := (List.rdropWhile_prefix (fun byte => byte == newline)
        (row.2.take length)).length_le
      rw [of_decide_eq_true same] at begins short
      have equal := texts_apart row' member' row member begins
      rw [List.length_take] at short
      omega
    refine ⟨⟨texts.any fun row' => (row.2.take length).isPrefixOf row'.2, "not an envelope"⟩,
      ?_, ?_⟩
    · simp only [codec, unknown]
    · rw [List.any_eq_true]
      exact ⟨row, member, List.isPrefixOf_iff_prefix.mpr (List.take_prefix _ _)⟩
  trailing := by
    intro bytes event decoded
    have dropped : (bytes ++ [newline]).rdropWhile (· == newline) =
        bytes.rdropWhile (· == newline) := by
      simp
    simp only [codec] at decoded ⊢
    rw [dropped]
    split at decoded
    next => exact decoded
    next => cases decoded

def stamps : Nat → EventId × Nat := fun _ => (⟨"e"⟩, 0)

/-- The turn was started, and the store is opened again. -/
def session : Session where
  store := ofEvents none [interrupted.envelope 0]
  disk := ⟨interruptedText ++ [newline], []⟩
  log := [interrupted.envelope 0]

theorem session_run : Session.created.run codec ([.append interrupted none] ++ [.reopen]) =
    .ok session := by rfl

theorem session_plan : session.plan ⟨"t"⟩ = [(⟨"u"⟩, .turnFailed interruptedTurn)] := by rfl

end Sample

/-- A thread of a file is recovered exactly, however often the process ends in between: recovered
at once, it has the events it had and those that close it, each call and each turn once.  Where
recovery ends within any append, at any byte of its record, any number of times, the store opens
again each time, and the recovery that ends well leaves the events that there would have been at
once.  No other thread is touched. -/
theorem recovers_crashed {codec : Codec} {known : EventEnvelope → Prop} {session : Session}
    (threadId : ThreadId) (faithful : codec.Faithful known) (actions : List Action)
    (questions : ∀ entry fault, .append entry fault ∈ actions →
      ∀ sequence < actions.length, known (entry.envelope sequence))
    (ran : Session.created.run codec (actions ++ [.reopen]) = .ok session)
    (last : Nat → EventId × Nat) (attempts : List ((Nat → EventId × Nat) × Crash))
    (closes : ∀ stamps ∈ last :: attempts.map Prod.fst,
      Closes known stamps threadId (session.plan threadId)
        (session.store.nextSequence + (session.plan threadId).length)) :
    ∃ receipts turns whole later report again,
      recoverOnDisk codec last threadId session none =
        (some (.ok ⟨receipts.map Prod.snd, turns⟩), whole) ∧
      ExactClosing (turnLog (session.store.loadThread threadId)) receipts turns ∧
      (whole.store.loadThread threadId).map EventEnvelope.content =
        (session.store.loadThread threadId).map EventEnvelope.content ++
          (receipts.map fun entry => (some entry.1, .toolReceiptRecorded entry.2)) ++
          turns.map (fun turnId => (some turnId, .turnFailed interruptedTurn)) ∧
      recoverCrashing codec threadId session attempts = .ok later ∧
      recoverOnDisk codec last threadId later none = (some (.ok report), again) ∧
      (again.store.loadThread threadId).map EventEnvelope.content =
        (whole.store.loadThread threadId).map EventEnvelope.content ∧
      ∀ other, other ≠ threadId →
        whole.store.loadThread other = session.store.loadThread other ∧
        again.store.loadThread other = session.store.loadThread other := by
  have ready := created_ready faithful actions questions ran
  have closesLast := closes last List.mem_cons_self
  obtain ⟨whole, wholeRan, wholeReady, added, wholeLog, wholeAll, wholeSame⟩ :=
    ready.whole closesLast
  obtain ⟨later, crashed, rests⟩ := ready.crashes faithful attempts fun attempt member =>
    closes attempt.1 (List.mem_cons_of_mem _ (List.mem_map_of_mem member))
  obtain ⟨written, before, plan, laterLog, laterAll, laterSame⟩ := rests.parts
  obtain ⟨again, againRan, againReady, behind, againLog, againAll, againSame⟩ :=
    rests.ready.whole (closesLast.rests rests)
  have wholeLoads := ready.loads wholeReady wholeLog wholeAll
  have laterLoads := ready.loads rests.ready laterLog laterAll
  have againLoads := rests.ready.loads againReady againLog againAll
  obtain ⟨log, isLog⟩ : ∃ log, log = turnLog (session.store.loadThread threadId) := ⟨_, rfl⟩
  refine ⟨(scanLog log).receipts, (scanLog log).openTurns.toList, whole, later, _, again, ?_, ?_, ?_,
    crashed, againRan, ?_, ?_⟩
  · rw [wholeRan, ← isLog]
    rfl
  · rw [← isLog]
    exact exactClosing log
  · rw [wholeLoads.1, List.map_append, wholeSame, Session.plan, ← isLog, contents,
      RecoveryState.plan, List.map_append, List.map_map, List.map_map, List.append_assoc]
    rfl
  · -- What was written before the last recovery and what it writes are what there was to append.
    have joined : contents (session.plan threadId) =
        contents written ++ contents (later.plan threadId) := by
      rw [plan, contents, List.map_append]
      rfl
    rw [againLoads.1, laterLoads.1, wholeLoads.1, List.map_append, List.map_append,
      List.map_append, againSame, laterSame, wholeSame, joined, List.append_assoc]
  · intro other apart
    exact ⟨wholeLoads.2 other apart, (againLoads.2 other apart).trans (laterLoads.2 other apart)⟩

/-- The failure of the turn is cut twice: behind ten bytes, and behind its whole record. -/
theorem recovers_crashed_twice :
    ∃ later report again,
      recoverCrashing Sample.codec ⟨"t"⟩ Sample.session
        [(Sample.stamps, ⟨0, ⟨10, "killed"⟩, false⟩),
          (Sample.stamps, ⟨0, ⟨200, "disk full"⟩, true⟩)] = .ok later ∧
      recoverOnDisk Sample.codec Sample.stamps ⟨"t"⟩ later none = (some (.ok report), again) ∧
      (again.store.loadThread ⟨"t"⟩).map EventEnvelope.content =
        [(some ⟨"u"⟩, .turnStarted), (some ⟨"u"⟩, .turnFailed interruptedTurn)] := by
  have questions : ∀ entry fault,
      Action.append entry fault ∈ [.append Sample.interrupted none] → ∀ sequence < 1,
        ∃ row ∈ Sample.texts, entry.envelope sequence = row.1 := by
    intro entry fault member sequence less
    cases List.mem_singleton.mp member
    obtain rfl : sequence = 0 := by omega
    exact ⟨_, List.mem_cons_self, rfl⟩
  have closing : ∀ sequence < 2,
      ∃ row ∈ Sample.texts, Sample.closing.envelope sequence = row.1 := by decide
  obtain ⟨receipts, turns, whole, later, report, again, wholeRan, _, _, crashed, againRan, same, _⟩ :=
    recovers_crashed ⟨"t"⟩ Sample.codec_faithful [.append Sample.interrupted none] questions
      Sample.session_run Sample.stamps
      [(Sample.stamps, ⟨0, ⟨10, "killed"⟩, false⟩),
        (Sample.stamps, ⟨0, ⟨200, "disk full"⟩, true⟩)] (by
      intro stamps member entry planned sequence less
      have isStamps : stamps = Sample.stamps := by simpa using member
      rw [Sample.session_plan] at planned less
      cases List.mem_singleton.mp planned
      rw [isStamps]
      exact closing sequence less)
  refine ⟨later, report, again, crashed, againRan, ?_⟩
  have isWhole : (recoverOnDisk Sample.codec Sample.stamps ⟨"t"⟩ Sample.session none).2 = whole :=
    congrArg Prod.snd wholeRan
  rw [same, ← isWhole]
  rfl

end Nausicaa.Store.JsonlEventStore
