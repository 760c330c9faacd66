import Nausicaa.Json.Text
import Nausicaa.Store.ReadBack
import Nausicaa.Text.Utf8

/-! # Polling the events of a thread

`thread/events` of the app server over a `MemoryEventStore` or a `JsonlEventStore`, and clients that
ask for what comes after the greatest sequence number they have received.  The answers to a client are
the log of its thread, event by event (`Polls.exact`); they are the very log unless the store was
opened again after a receipt with a null output was received. -/

namespace Nausicaa.Server

open Core Store
open Json (Value optionalMember)

/-! ## Stores -/

/-- `MemoryEventStore`. -/
structure MemoryEventStore where
  nextSequence : Nat
  events : List EventEnvelope

namespace MemoryEventStore

def new : MemoryEventStore := ⟨0, []⟩

def append (store : MemoryEventStore) (entry : JsonlEventStore.Append) :
    EventEnvelope × MemoryEventStore :=
  let envelope := entry.envelope store.nextSequence
  (envelope, ⟨store.nextSequence + 1, store.events ++ [envelope]⟩)

end MemoryEventStore

/-- The implementations of `EventStore`, the one on disk with its disk. -/
inductive EventStore where
  | memory (store : MemoryEventStore)
  | jsonl (store : JsonlEventStore) (disk : Disk)

namespace EventStore

def all : EventStore → List EventEnvelope
  | .memory store => store.events
  | .jsonl store _ => store.events

def nextSequence : EventStore → Nat
  | .memory store => store.nextSequence
  | .jsonl store _ => store.nextSequence

def OnDisk : EventStore → Prop
  | .memory _ => False
  | .jsonl _ _ => True

/-- `append`; only on a disk it can fail. -/
def append (codec : Codec) (entry : JsonlEventStore.Append)
    (fault : Option JsonlEventStore.Fault) : EventStore → EventStore
  | .memory store => .memory (store.append entry).2
  | .jsonl store disk =>
    let (_, store, disk) := store.append codec disk entry fault
    .jsonl store disk

def loadThread (store : EventStore) (threadId : ThreadId) : List EventEnvelope :=
  store.all.filter fun event => event.threadId = threadId

end EventStore

/-! ## Requests -/

structure RpcError where
  code : Int
  message : String

def RpcError.invalidParams (message : String) : RpcError := ⟨-32602, message⟩

def RpcError.internal (message : String) : RpcError := ⟨-32603, message⟩

def threadParam (params : Value) : Except RpcError ThreadId :=
  match (params.get "thread_id").bind Value.asString with
  | some threadId => .ok ⟨threadId⟩
  | none => .error (.invalidParams "thread_id must be a string")

/-- `AgentRuntime::events`.  What is appended between its two loads might as well be appended before
them: a thread that exists does not vanish. -/
def runtimeEvents (store : EventStore) (threadId : ThreadId) :
    Except RuntimeError (List EventEnvelope) :=
  if (store.loadThread threadId).any fun envelope => envelope.event = .threadStarted then
    .ok (store.loadThread threadId)
  else
    .error (.unknownThread threadId)

/-- `thread/events` of `dispatch`. -/
def threadEvents (store : EventStore) (params : Value) : Except RpcError Value :=
  match threadParam params with
  | .error error => .error error
  | .ok threadId =>
    let afterSequence := (params.get "after_sequence").bind Value.asNat
    match runtimeEvents store threadId with
    | .error error => .error (.internal error.toString)
    | .ok events =>
      .ok (.array ((events.filter fun event =>
        afterSequence.all fun sequence => event.sequence > sequence).map EventEnvelope.toJson))

/-! ## Clients -/

/-- The sequence number of an event as a client reads it. -/
def sequenceOf (event : Value) : Option Nat := (event.get "sequence").bind Value.asNat

/-- A store, and for each thread what its client has received in all answers. -/
structure Polling where
  store : EventStore
  received : ThreadId → List Value

namespace Polling

/-- The params of the client's next request. -/
def params (polling : Polling) (threadId : ThreadId) : Value :=
  let greatest := ((polling.received threadId).filterMap sequenceOf).max?
  .object (optionalMember "after_sequence" (greatest.map fun sequence => .number (.posInt sequence)) ++
    [("thread_id", threadId.toJson)])

def poll (polling : Polling) (threadId : ThreadId) : Polling :=
  match threadEvents polling.store (polling.params threadId) with
  | .ok (.array events) =>
    { polling with
      received := Function.update polling.received threadId (polling.received threadId ++ events) }
  | _ => polling

end Polling

/-- Appends to any threads, requests of their clients, and reopenings of a store on disk, whose
failing appends wrote nothing.  The list holds what was before each reopening. -/
inductive Polls (serde : SerdeJson) (printed : Value → Prop) : List Polling → Polling → Prop where
  | memory : Polls serde printed [] ⟨.memory .new, fun _ => []⟩
  | create {store : JsonlEventStore} {disk : Disk} :
    JsonlEventStore.openFile serde.codec ⟨[], []⟩ = (.ok store, disk) →
    Polls serde printed [] ⟨.jsonl store disk, fun _ => []⟩
  | append {reopened : List Polling} {polling : Polling} (entry : JsonlEventStore.Append)
      (fault : Option JsonlEventStore.Fault) :
    Polls serde printed reopened polling → (∀ fault' ∈ fault, fault'.written = 0) →
    (polling.store.OnDisk → printed (entry.envelope polling.store.nextSequence).toJson) →
    Polls serde printed reopened
      { polling with store := polling.store.append serde.codec entry fault }
  | poll {reopened : List Polling} {polling : Polling} (threadId : ThreadId) :
    Polls serde printed reopened polling → Polls serde printed reopened (polling.poll threadId)
  | reopen {reopened : List Polling} {store store' : JsonlEventStore} {disk disk' : Disk}
      {received : ThreadId → List Value} :
    Polls serde printed reopened ⟨.jsonl store disk, received⟩ →
    JsonlEventStore.openFile serde.codec disk = (.ok store', disk') →
    Polls serde printed (⟨.jsonl store disk, received⟩ :: reopened) ⟨.jsonl store' disk', received⟩

/-- A receipt that the store on disk does not give back. -/
def NullOutput (envelope : EventEnvelope) : Prop :=
  ∃ receipt, envelope.event = .toolReceiptRecorded receipt ∧ receipt.output = some .null

/-- No client of the thread had received a receipt with a null output when the store was opened
again. -/
def Unspoiled (reopened : List Polling) (threadId : ThreadId) : Prop :=
  ∀ before ∈ reopened, ∀ envelope : EventEnvelope,
    envelope.toJson ∈ before.received threadId → ¬ NullOutput envelope

section Polling

variable {serde : SerdeJson} {printed : Value → Prop} {reopened : List Polling} {polling : Polling}
variable {threadId : ThreadId} {envelope : EventEnvelope} {seen shown rest : List EventEnvelope}

/-! ## Null outputs -/

theorem nullOutput_iff : ¬ NullOutput envelope ↔ envelope.readBack = envelope := by
  rw [readBack_eq_self, NullOutput]
  simp only [not_exists, not_and, ne_eq]

theorem readBack_readBack : envelope.readBack.readBack = envelope.readBack := by
  rw [readBack_eq_self]
  intro receipt shown
  obtain ⟨id, sequence, atUnixMs, threadId, turnId, event⟩ := envelope
  cases event with
  | toolReceiptRecorded receipt' =>
    cases shown
    simp only [ToolReceipt.readBack, ne_eq]
    intro null
    have := Option.filter_eq_some_iff.mp null
    simp at this
  | _ => cases shown

/-- The missing output shows in the text of the event. -/
theorem toJson_readBack (same : envelope.readBack.toJson = envelope.toJson) :
    envelope.readBack = envelope := by
  rw [readBack_eq_self]
  rintro receipt shown null
  obtain ⟨id, sequence, atUnixMs, threadId, turnId, event⟩ := envelope
  cases shown
  simp [EventEnvelope.readBack, EventEnvelope.toJson, RuntimeEvent.readBack, RuntimeEvent.toJson,
    ToolReceipt.readBack, ToolReceipt.toJson, null, optionalMember, Option.filter] at same

theorem toJson_injective {other : EventEnvelope} (same : envelope.toJson = other.toJson) :
    envelope.readBack = other.readBack := by
  have read := EventEnvelope.fromJson_toJson envelope
  rw [same, EventEnvelope.fromJson_toJson] at read
  exact (Option.some.inj read).symm

/-! ## What comes after a number -/

/-- In an ordered log, what has a number after those of a first part is what follows this part. -/
theorem filter_after {first second : List EventEnvelope}
    (ordered : (first ++ second).Pairwise fun a b => a.sequence < b.sequence) :
    (first ++ second).filter (fun event =>
      (first.map EventEnvelope.sequence).max?.all fun sequence => event.sequence > sequence) =
        second := by
  obtain ⟨_, _, apart⟩ := List.pairwise_append.mp ordered
  cases greatest : (first.map EventEnvelope.sequence).max? with
  | none =>
    rw [List.max?_eq_none_iff, List.map_eq_nil_iff] at greatest
    simp [greatest]
  | some sequence =>
    obtain ⟨there, atMost⟩ := List.max?_eq_some_iff.mp greatest
    obtain ⟨last, member, number⟩ := List.mem_map.mp there
    rw [List.filter_append, List.filter_eq_nil_iff.mpr, List.filter_eq_self.mpr, List.nil_append]
    · intro event later
      have := apart last member event later
      simp
      omega
    · intro event earlier
      have := atMost event.sequence (List.mem_map_of_mem earlier)
      simp
      omega

/-! ## What is shown -/

/-- The log shows an event that was received as it was, or as it is read back. -/
def Shows (old now : EventEnvelope) : Prop := now = old ∨ now = old.readBack

theorem Shows.sequence {old now : EventEnvelope} (shows : Shows old now) :
    now.sequence = old.sequence := by
  obtain rfl | rfl := shows <;> rfl

theorem Shows.readBack {old now : EventEnvelope} (shows : Shows old now) : Shows old now.readBack := by
  obtain rfl | rfl := shows
  · exact .inr rfl
  · exact .inr readBack_readBack

/-- An event is shown as it was received exactly where it looks the same. -/
theorem Shows.eq_iff {old now : EventEnvelope} (shows : Shows old now) :
    old.toJson = now.toJson ↔ old = now := by
  constructor
  · intro same
    obtain rfl | rfl := shows
    · rfl
    · exact (toJson_readBack same.symm).symm
  · rintro rfl
    rfl

theorem sequenceOf_toJson (envelope : EventEnvelope) :
    sequenceOf envelope.toJson = some envelope.sequence := by
  cases turn : envelope.turnId <;>
    simp [sequenceOf, EventEnvelope.toJson, Value.get, Value.asNat, optionalMember, turn]

theorem shows_sequences (shows : List.Forall₂ Shows seen shown) :
    seen.map EventEnvelope.sequence = shown.map EventEnvelope.sequence := by
  induction shows with
  | nil => rfl
  | cons first _ ih => rw [List.map_cons, List.map_cons, first.sequence, ih]

theorem shows_eq_iff (shows : List.Forall₂ Shows seen shown) :
    seen.map EventEnvelope.toJson = shown.map EventEnvelope.toJson ↔ seen = shown := by
  induction shows with
  | nil => simp
  | cons first _ ih => simp [first.eq_iff, ih]

/-- Reading a log back spoils what was received of it exactly where an output was null. -/
theorem shows_readBack (shows : List.Forall₂ Shows seen shown) :
    seen = shown.map EventEnvelope.readBack ↔
      seen = shown ∧ ∀ event ∈ seen, event.readBack = event := by
  induction shows with
  | nil => simp
  | @cons old now seen shown first rest ih =>
    have one : old = now.readBack ↔ old = now ∧ old.readBack = old := by
      constructor
      · rintro rfl
        obtain same | same := first
        · exact ⟨same.symm, readBack_readBack⟩
        · rw [readBack_readBack] at same
          exact ⟨same.symm, readBack_readBack⟩
      · rintro ⟨rfl, same⟩
        exact same.symm
    simp only [List.map_cons, List.cons.injEq, List.forall_mem_cons, one, ih]
    tauto

theorem received_iff (seen : List EventEnvelope) :
    (∀ envelope : EventEnvelope, envelope.toJson ∈ seen.map EventEnvelope.toJson →
      ¬ NullOutput envelope) ↔ ∀ event ∈ seen, event.readBack = event := by
  constructor
  · intro fine event member
    exact nullOutput_iff.mp (fine event (List.mem_map_of_mem member))
  · intro fine envelope member
    obtain ⟨event, present, same⟩ := List.mem_map.mp member
    rw [nullOutput_iff]
    refine toJson_readBack ?_
    rw [← toJson_injective same, fine event present, same]

theorem sequences_received (seen : List EventEnvelope) :
    (seen.map EventEnvelope.toJson).filterMap sequenceOf = seen.map EventEnvelope.sequence := by
  induction seen with
  | nil => rfl
  | cons event seen ih =>
    rw [List.map_cons, List.filterMap_cons, sequenceOf_toJson, ih]
    rfl

/-! ## The stores of a run -/

/-- The events of a store have increasing numbers, and on disk are the records of its file. -/
structure Stored (serde : SerdeJson) (printed : Value → Prop) (store : EventStore) : Prop where
  ordered : store.all.Pairwise fun a b => a.sequence < b.sequence
  below : ∀ event ∈ store.all, event.sequence < store.nextSequence
  file : ∀ (onDisk : JsonlEventStore) (disk : Disk), store = .jsonl onDisk disk →
    ∃ log : List EventEnvelope,
      disk.file = Jsonl.terminated newline (log.map serde.codec.encode) ∧
      (∀ event ∈ log, printed event.toJson) ∧
      log.map EventEnvelope.readBack = onDisk.events.map EventEnvelope.readBack

/-- An append adds the event with the next number, or nothing. -/
theorem append_all (codec : Codec) (entry : JsonlEventStore.Append)
    (fault : Option JsonlEventStore.Fault) (store : EventStore) :
    (store.append codec entry fault).all = store.all ∧
        (store.append codec entry fault).nextSequence = store.nextSequence ∨
      (store.append codec entry fault).all =
        store.all ++ [entry.envelope store.nextSequence] ∧
        (store.append codec entry fault).nextSequence = store.nextSequence + 1 := by
  cases store with
  | memory store => exact .inr ⟨rfl, rfl⟩
  | jsonl store disk =>
    cases failed : store.writeFailed with
    | true => exact .inl (by simp [EventStore.append, JsonlEventStore.append, failed, EventStore.all,
        EventStore.nextSequence])
    | false =>
      cases fault with
      | some fault => exact .inl (by simp [EventStore.append, JsonlEventStore.append, failed,
          EventStore.all, EventStore.nextSequence])
      | none => exact .inr (by simp [EventStore.append, JsonlEventStore.append, failed,
          EventStore.all, EventStore.nextSequence])

theorem Stored.append {entry : JsonlEventStore.Append} {fault : Option JsonlEventStore.Fault}
    {store : EventStore} (stored : Stored serde printed store)
    (harmless : ∀ fault' ∈ fault, fault'.written = 0)
    (question : store.OnDisk → printed (entry.envelope store.nextSequence).toJson) :
    Stored serde printed (store.append serde.codec entry fault) where
  ordered := by
    obtain ⟨all, _⟩ | ⟨all, _⟩ := append_all serde.codec entry fault store
    · rw [all]
      exact stored.ordered
    · rw [all, List.pairwise_append]
      refine ⟨stored.ordered, List.pairwise_singleton _ _, ?_⟩
      intro event member last new
      rw [List.mem_singleton.mp new]
      exact stored.below event member
  below := by
    obtain ⟨all, next⟩ | ⟨all, next⟩ := append_all serde.codec entry fault store
    · rw [all, next]
      exact stored.below
    · rw [all, next]
      intro event member
      obtain earlier | last := List.mem_append.mp member
      · exact Nat.lt_succ_of_lt (stored.below event earlier)
      · rw [List.mem_singleton.mp last]
        exact Nat.lt_succ_self _
  file := by
    intro onDisk' disk' same
    cases store with
    | memory store => cases same
    | jsonl onDisk disk =>
      obtain ⟨log, file, questions, alike⟩ := stored.file onDisk disk rfl
      cases failed : onDisk.writeFailed with
      | true =>
        simp only [EventStore.append, JsonlEventStore.append, failed, ↓reduceIte] at same
        cases same
        exact ⟨log, file, questions, alike⟩
      | false =>
        cases fault with
        | some fault =>
          simp only [EventStore.append, JsonlEventStore.append, failed] at same
          cases same
          refine ⟨log, ?_, questions, alike⟩
          simp [harmless fault rfl, file]
        | none =>
          simp only [EventStore.append, JsonlEventStore.append, failed] at same
          cases same
          refine ⟨log ++ [entry.envelope onDisk.nextSequence], ?_, ?_, ?_⟩
          · rw [← JsonlEventStore.terminated_record, ← file]
            rfl
          · intro event member
            obtain earlier | last := List.mem_append.mp member
            · exact questions event earlier
            · rw [List.mem_singleton.mp last]
              exact question trivial
          · simp [alike]

/-- A reopened store has the events as they are read back. -/
theorem Stored.reopen {store store' : JsonlEventStore} {disk disk' : Disk}
    (documented : serde.Documented printed) (stored : Stored serde printed (.jsonl store disk))
    (opened : JsonlEventStore.openFile serde.codec disk = (.ok store', disk')) :
    store'.events = store.events.map EventEnvelope.readBack ∧
      Stored serde printed (.jsonl store' disk') := by
  obtain ⟨log, file, questions, alike⟩ := stored.file store disk rfl
  obtain ⟨bytes, archives⟩ := disk
  subst file
  have shallow : ∀ event ∈ log, event.toJson.depth ≤ recursionLimit := by
    intro event member
    by_contra deep
    obtain ⟨error, fails⟩ := JsonlEventStore.openFile_deep documented questions archives member
      (Nat.lt_of_not_le deep)
    rw [opened] at fails
    cases fails
  rw [JsonlEventStore.openFile_shallow documented questions archives shallow, alike] at opened
  cases opened
  have ordered : (store.events.map EventEnvelope.readBack).Pairwise
      fun a b => a.sequence < b.sequence := List.pairwise_map.mpr stored.ordered
  have events : (JsonlEventStore.ofEvents none _).events = _ :=
    JsonlEventStore.events_ofEvents ordered
  refine ⟨events, ?_, ?_, ?_⟩
  · show (JsonlEventStore.ofEvents none _).events.Pairwise _
    rw [events]
    exact ordered
  · intro event member
    refine JsonlEventStore.sequence_lt_next ?_
    have member : event ∈ (JsonlEventStore.ofEvents none _).events := member
    rwa [events] at member
  · intro onDisk disk same
    cases same
    refine ⟨log, rfl, questions, ?_⟩
    rw [events, alike, List.map_map]
    exact List.map_congr_left fun event _ => readBack_readBack.symm

/-! ## Runs -/

/-- A client has received the first part of the log of its thread, as it was when it was answered. -/
structure Received (reopened : List Polling) (log : List EventEnvelope) (threadId : ThreadId)
    (received : List Value) (seen shown rest : List EventEnvelope) : Prop where
  received : received = seen.map EventEnvelope.toJson
  log : log = shown ++ rest
  shows : List.Forall₂ Shows seen shown
  exact : Unspoiled reopened threadId ↔ seen = shown

/-- What holds in a run. -/
structure Followed (serde : SerdeJson) (printed : Value → Prop) (reopened : List Polling)
    (polling : Polling) : Prop where
  stored : Stored serde printed polling.store
  received : ∀ threadId, ∃ seen shown rest, Received reopened (polling.store.loadThread threadId)
    threadId (polling.received threadId) seen shown rest

theorem Received.nothing (log : List EventEnvelope) (threadId : ThreadId) :
    Received [] log threadId [] [] [] log where
  received := rfl
  log := rfl
  shows := .nil
  exact := iff_of_true (by simp [Unspoiled]) rfl

theorem Received.append {log log' : List EventEnvelope} {received : List Value}
    (tracked : Received reopened log threadId received seen shown rest) (more : List EventEnvelope)
    (grown : log' = log ++ more) : Received reopened log' threadId received seen shown (rest ++ more) :=
  { tracked with log := by rw [grown, tracked.log, List.append_assoc] }

theorem Received.reopen {log : List EventEnvelope}
    (tracked : Received reopened log threadId (polling.received threadId) seen shown rest) :
    Received (polling :: reopened) (log.map EventEnvelope.readBack) threadId
      (polling.received threadId) seen (shown.map EventEnvelope.readBack)
      (rest.map EventEnvelope.readBack) where
  received := tracked.received
  log := by rw [tracked.log, List.map_append]
  shows := by
    rw [List.forall₂_map_right_iff]
    exact tracked.shows.imp fun _ _ shows => shows.readBack
  exact := by
    have now := received_iff seen
    rw [← tracked.received] at now
    rw [shows_readBack tracked.shows, ← tracked.exact, ← now, Unspoiled, Unspoiled,
      List.forall_mem_cons, and_comm]

/-- The params of a request are read as they were meant. -/
theorem threadEvents_params (threadId : ThreadId) :
    threadEvents polling.store (polling.params threadId) =
      match runtimeEvents polling.store threadId with
      | .error error => .error (.internal error.toString)
      | .ok events => .ok (.array ((events.filter fun event =>
          ((polling.received threadId).filterMap sequenceOf).max?.all
            fun sequence => event.sequence > sequence).map EventEnvelope.toJson)) := by
  have thread : ((polling.params threadId).get "thread_id").bind Value.asString =
      some threadId.value := by
    simp [Polling.params, Value.get, Id.toJson, Value.asString]
  have after : ((polling.params threadId).get "after_sequence").bind Value.asNat =
      ((polling.received threadId).filterMap sequenceOf).max? := by
    cases greatest : ((polling.received threadId).filterMap sequenceOf).max? <;>
      simp [Polling.params, Value.get, Value.asNat, greatest, optionalMember]
  rw [threadEvents, threadParam, thread]
  simp only [after]

theorem poll_refused {error : RpcError}
    (refused : threadEvents polling.store (polling.params threadId) = .error error) :
    polling.poll threadId = polling := by
  rw [Polling.poll, refused]

/-- An answer is what was not received of the log. -/
theorem poll_answered (tracked : Followed serde printed reopened polling) {answer : Value}
    (answered : threadEvents polling.store (polling.params threadId) = .ok answer) :
    (polling.poll threadId).store = polling.store ∧
    (∀ other ≠ threadId, (polling.poll threadId).received other = polling.received other) ∧
    ∃ seen, Received reopened (polling.store.loadThread threadId) threadId
      ((polling.poll threadId).received threadId) seen (polling.store.loadThread threadId) [] := by
  obtain ⟨seen, shown, rest, tracked'⟩ := tracked.received threadId
  have ordered : (shown ++ rest).Pairwise fun a b => a.sequence < b.sequence := by
    rw [← tracked'.log]
    exact tracked.stored.ordered.filter _
  have known : (polling.received threadId).filterMap sequenceOf =
      shown.map EventEnvelope.sequence := by
    rw [tracked'.received, sequences_received, shows_sequences tracked'.shows]
  have shown' : threadEvents polling.store (polling.params threadId) =
      .ok (.array (rest.map EventEnvelope.toJson)) := by
    rw [threadEvents_params, runtimeEvents] at answered ⊢
    split at answered
    next => cases answered
    next events found =>
      split at found
      next exist =>
        cases found
        simp only [known, tracked'.log, filter_after ordered]
      next => cases found
  have polled : polling.poll threadId = { polling with
      received := Function.update polling.received threadId
        (polling.received threadId ++ rest.map EventEnvelope.toJson) } := by
    rw [Polling.poll, shown']
  rw [polled]
  refine ⟨rfl, fun other apart => Function.update_of_ne apart _ _, seen ++ rest, ?_⟩
  exact {
    received := by
      show Function.update polling.received threadId _ threadId = _
      rw [Function.update_self, tracked'.received, List.map_append]
    log := by rw [List.append_nil]
    shows := by
      rw [tracked'.log]
      exact List.rel_append tracked'.shows (List.forall₂_same.mpr fun _ _ => .inl rfl)
    exact := by rw [tracked'.exact, tracked'.log, List.append_left_inj] }

theorem Polls.followed (documented : serde.Documented printed)
    (polls : Polls serde printed reopened polling) : Followed serde printed reopened polling := by
  induction polls with
  | memory =>
    refine ⟨⟨.nil, by simp [EventStore.all, MemoryEventStore.new], by intro _ _ same; cases same⟩, ?_⟩
    exact fun threadId => ⟨[], [], _, .nothing _ threadId⟩
  | create opened =>
    cases opened
    refine ⟨⟨.nil, ?_, ?_⟩, ?_⟩
    · intro event member
      cases (show event ∈ ([] : List EventEnvelope) from member)
    · intro onDisk disk same
      cases same
      exact ⟨[], rfl, by simp, rfl⟩
    · exact fun threadId => ⟨[], [], _, .nothing _ threadId⟩
  | @append reopened polling entry fault _ harmless question ih =>
    refine ⟨ih.stored.append harmless question, ?_⟩
    intro threadId
    obtain ⟨seen, shown, rest, tracked⟩ := ih.received threadId
    obtain ⟨all, _⟩ | ⟨all, _⟩ := append_all serde.codec entry fault _
    · refine ⟨seen, shown, rest ++ [], tracked.append [] ?_⟩
      rw [List.append_nil, EventStore.loadThread, all]
      rfl
    · let more := [entry.envelope polling.store.nextSequence].filter fun event =>
        decide (event.threadId = threadId)
      refine ⟨seen, shown, rest ++ more, tracked.append more ?_⟩
      rw [EventStore.loadThread, all, List.filter_append]
      rfl
  | @poll reopened polling threadId _ ih =>
    cases answer : threadEvents polling.store (polling.params threadId) with
    | error error =>
      rw [poll_refused answer]
      exact ih
    | ok answer' =>
      obtain ⟨store, others, seen, tracked⟩ := poll_answered ih answer
      refine ⟨store ▸ ih.stored, ?_⟩
      intro other
      rw [store]
      by_cases own : other = threadId
      · subst own
        exact ⟨seen, _, [], tracked⟩
      · rw [others other own]
        exact ih.received other
  | @reopen reopened store store' disk disk' received _ opened ih =>
    obtain ⟨events, stored⟩ := ih.stored.reopen documented opened
    refine ⟨stored, ?_⟩
    intro threadId
    obtain ⟨seen, shown, rest, tracked⟩ := ih.received threadId
    refine ⟨seen, shown.map EventEnvelope.readBack, rest.map EventEnvelope.readBack, ?_⟩
    have log : EventStore.loadThread (.jsonl store' disk') threadId =
        (EventStore.loadThread (.jsonl store disk) threadId).map EventEnvelope.readBack := by
      rw [EventStore.loadThread, EventStore.all, events, List.filter_map]
      rfl
    rw [log]
    let polling : Polling := ⟨.jsonl store disk, received⟩
    have polled : Received reopened _ threadId (polling.received threadId) seen shown rest := tracked
    exact polled.reopen

/-! ## A sample -/

namespace Sample

/-- The compact text, and a parser that descends as far as serde_json. -/
def serdeJson : SerdeJson where
  print value := Text.encode value.text
  parse bytes :=
    match (Text.decode (bytes.rdropWhile (· == newline))).bind Json.parse with
    | some value =>
      if value.depth ≤ recursionLimit then .ok value else .error ⟨false, "recursion limit exceeded"⟩
    | none => .error ⟨false, "expected value"⟩
  rejection _ := "missing field"

theorem serdeJson_oneLine (value : Value) : newline ∉ serdeJson.print value := by
  intro member
  have member : UInt8.ofNat '\n'.toNat ∈ Text.encode value.text := member
  exact Json.Value.newline_not_mem_text value (Text.mem_encode (by decide) member)

theorem serdeJson_parse {value : Value} (plain : value.Plain) :
    serdeJson.parse (serdeJson.print value ++ [newline]) =
      if value.depth ≤ recursionLimit then .ok value
      else .error ⟨false, "recursion limit exceeded"⟩ := by
  have line : (serdeJson.print value ++ [newline]).rdropWhile (· == newline) =
      Text.encode value.text := by
    rw [List.rdropWhile_concat_pos _ _ _ (by rfl)]
    refine List.rdropWhile_eq_self_iff.mpr ?_
    intro nonempty ends
    exact serdeJson_oneLine value (eq_of_beq ends ▸ List.getLast_mem nonempty)
  have parse : serdeJson.parse (serdeJson.print value ++ [newline]) =
      match (Text.decode ((serdeJson.print value ++ [newline]).rdropWhile (· == newline))).bind
        Json.parse with
      | some value =>
        if value.depth ≤ recursionLimit then .ok value
        else .error ⟨false, "recursion limit exceeded"⟩
      | none => .error ⟨false, "expected value"⟩ := rfl
  rw [parse, line, Text.decode_encode, Option.bind_some, Json.parse_text plain]

theorem serdeJson_documented : serdeJson.Documented Value.Plain where
  oneLine value _ := serdeJson_oneLine value
  object members _ := by
    obtain ⟨rest, shown⟩ := List.head?_eq_some_iff.mp (Json.Value.braces members).1
    show (Text.encode (Value.object members).text).head? = _
    rw [Text.encode_eq_flatMap, shown]
    rfl
  exact value plain shallow := by rw [serdeJson_parse plain, if_pos shallow]
  limited value plain deep := ⟨_, by rw [serdeJson_parse plain, if_neg (Nat.not_le_of_lt deep)]⟩

def thread : ThreadId := ⟨"thread_1"⟩

def message : JsonlEventStore.Append :=
  ⟨⟨"event_2"⟩, 1700000000001, thread, some ⟨"turn_1"⟩, .userMessage "hello"⟩

def disk (events : List EventEnvelope) : Disk :=
  ⟨Jsonl.terminated newline (events.map serdeJson.codec.encode), []⟩

def store (events : List EventEnvelope) : EventStore :=
  .jsonl ⟨none, events.length, events, false⟩ (disk events)

theorem append_store (events : List EventEnvelope) (entry : JsonlEventStore.Append) :
    (store events).append serdeJson.codec entry none =
      store (events ++ [entry.envelope events.length]) := by
  have record := JsonlEventStore.terminated_record serdeJson.codec events
    (entry.envelope events.length)
  simpa [store, disk, EventStore.append, JsonlEventStore.append] using record

theorem polls_append {events : List EventEnvelope} {entry : JsonlEventStore.Append}
    (polls : Polls serdeJson Value.Plain [] ⟨store events, fun _ => []⟩)
    (plain : (entry.envelope events.length).toJson.Plain) :
    Polls serdeJson Value.Plain []
      ⟨store (events ++ [entry.envelope events.length]), fun _ => []⟩ := by
  rw [← append_store]
  exact .append entry none polls nofun fun _ => plain

theorem polls_empty : Polls serdeJson Value.Plain [] ⟨store [], fun _ => []⟩ :=
  .create (JsonlEventStore.Session.created_opened _)

/-- The first two events of a thread. -/
def log (entry : JsonlEventStore.Append) : List EventEnvelope :=
  [Store.Sample.started.envelope 0, entry.envelope 1]

/-- Its client has received them. -/
def polled (entry : JsonlEventStore.Append) : Polling :=
  Polling.poll ⟨store (log entry), fun _ => []⟩ thread

/-- The same after a reopening. -/
def again (entry : JsonlEventStore.Append) : Polling :=
  ⟨.jsonl (.ofEvents none ((log entry).map EventEnvelope.readBack)) (disk (log entry)),
    (polled entry).received⟩

theorem started_plain : (Store.Sample.started.envelope 0).toJson.Plain := by
  simp [Store.Sample.started, JsonlEventStore.Append.envelope, EventEnvelope.toJson, Id.toJson,
    RuntimeEvent.toJson, Value.Plain, Value.PlainMembers, optionalMember]

theorem polls {entry : JsonlEventStore.Append} (plain : (entry.envelope 1).toJson.Plain)
    (shallow : (entry.envelope 1).toJson.depth ≤ recursionLimit)
    (shown : (polled entry).store = store (log entry)) :
    Polls serdeJson Value.Plain [polled entry] (again entry) := by
  have before : Polls serdeJson Value.Plain [] (polled entry) :=
    .poll thread (polls_append (polls_append polls_empty started_plain) plain)
  have questions : ∀ event ∈ log entry, event.toJson.Plain := by
    simp [log, started_plain, plain]
  have depths : ∀ event ∈ log entry, event.toJson.depth ≤ recursionLimit := by
    have first : (Store.Sample.started.envelope 0).toJson.depth ≤ recursionLimit := by decide
    simp [log, first, shallow]
  have opened := JsonlEventStore.openFile_shallow serdeJson_documented questions [] depths
  have same : polled entry = ⟨store (log entry), (polled entry).received⟩ := by
    rw [← shown]
  rw [same] at before ⊢
  exact .reopen before opened

theorem answer {result : Except RpcError Value} (answered : result.toBool = true) :
    ∃ answer, result = .ok answer := by
  cases result with
  | ok answer => exact ⟨answer, rfl⟩
  | error error => cases answered

end Sample

/-- When a request of a client is answered, it has received the log of its thread: the same events in
the same order, and the very log exactly where the store was not opened again after a receipt with a
null output was received. -/
theorem Polls.exact (documented : serde.Documented printed)
    (polls : Polls serde printed reopened polling) {answer : Value}
    (answered : threadEvents polling.store (polling.params threadId) = .ok answer) :
    ((polling.poll threadId).received threadId).filterMap sequenceOf =
      (polling.store.loadThread threadId).map EventEnvelope.sequence ∧
    ((polling.poll threadId).received threadId =
        (polling.store.loadThread threadId).map EventEnvelope.toJson ↔
      Unspoiled reopened threadId) := by
  obtain ⟨_, _, seen, tracked⟩ := poll_answered (polls.followed documented) answered
  rw [tracked.received]
  constructor
  · rw [sequences_received, shows_sequences tracked.shows]
  · rw [shows_eq_iff tracked.shows, tracked.exact]

/-- A user message is received once, before the reopening. -/
theorem Polls.exact_message :
    ((Sample.again Sample.message).poll Sample.thread).received Sample.thread =
      ((Sample.again Sample.message).store.loadThread Sample.thread).map EventEnvelope.toJson := by
  have plain : (Sample.message.envelope 1).toJson.Plain := by
    simp [Sample.message, Sample.thread, JsonlEventStore.Append.envelope, EventEnvelope.toJson,
      Id.toJson, RuntimeEvent.toJson, Value.Plain, Value.PlainMembers, optionalMember]
  have polls := Sample.polls plain (by decide) rfl
  have answered : (threadEvents (Sample.again Sample.message).store
      ((Sample.again Sample.message).params Sample.thread)).toBool = true := by
    decide
  obtain ⟨_, answered⟩ := Sample.answer answered
  refine (Polls.exact Sample.serdeJson_documented polls answered).2.mpr ?_
  have received : (Sample.polled Sample.message).received Sample.thread =
      (Sample.log Sample.message).map EventEnvelope.toJson := by
    decide
  rw [Unspoiled, List.forall_mem_singleton, received, received_iff]
  decide

/-- The output is null in the answer, and missing in the log that was opened again. -/
theorem Polls.null_output_differs : ∃ reopened polling, Polls Sample.serdeJson Value.Plain
      reopened polling ∧
    (∃ answer, threadEvents polling.store (polling.params Sample.thread) = .ok answer) ∧
    (polling.poll Sample.thread).received Sample.thread ≠
      (polling.store.loadThread Sample.thread).map EventEnvelope.toJson := by
  have plain : (Store.Sample.nullOutput.envelope 1).toJson.Plain := by
    simp [Store.Sample.nullOutput, JsonlEventStore.Append.envelope, EventEnvelope.toJson, Id.toJson,
      RuntimeEvent.toJson, Value.Plain, Value.PlainMembers, optionalMember, ToolReceipt.toJson,
      ToolReceipt.succeeded, CanonicalAction.toJson, ReceiptStatus.toJson, EffectKind.toJson,
      RetrySafety.toJson]
  have answered : (threadEvents (Sample.again Store.Sample.nullOutput).store
      ((Sample.again Store.Sample.nullOutput).params Sample.thread)).toBool = true := by
    decide
  refine ⟨_, _, Sample.polls plain (by decide) rfl, Sample.answer answered, ?_⟩
  decide

end Polling

end Nausicaa.Server
