import Nausicaa.Store.Serde
import Nausicaa.Store.Sessions

/-! # Which events can be read back

Events that were appended without a failure are loaded again from the reopened log exactly
if each of them is replayable (`reads_back_iff`): a receipt with a null output comes back
without it, and a log with too deep a value does not open at all. -/

namespace Nausicaa.Store

open Nausicaa.Core
open Jsonl (terminated)

/-! ## serde_json -/

/-- `to_vec` prints the value of an envelope; `from_slice` parses a value, and has a text for
a value that is no envelope. -/
structure SerdeJson where
  print : Json.Value → Bytes
  parse : Bytes → Except DecodeError Json.Value
  rejection : Json.Value → String

def SerdeJson.codec (serde : SerdeJson) : Codec where
  encode envelope := serde.print envelope.toJson
  decode bytes :=
    match serde.parse bytes with
    | .error error => .error error
    | .ok value =>
      match EventEnvelope.fromJson value with
      | some envelope => .ok envelope
      | none => .error ⟨false, serde.rejection value⟩

/-- How many arrays and objects serde_json's parser enters at most. -/
def recursionLimit : Nat := 127

/-- What serde_json documents about the values in question. -/
structure SerdeJson.Documented (serde : SerdeJson) (printed : Json.Value → Prop) : Prop where
  oneLine : ∀ value, printed value → newline ∉ serde.print value
  object : ∀ members, printed (.object members) →
    (serde.print (.object members)).head? = some 0x7B
  exact : ∀ value, printed value → value.depth ≤ recursionLimit →
    serde.parse (serde.print value ++ [newline]) = .ok value
  limited : ∀ value, printed value → recursionLimit < value.depth →
    ∃ error, serde.parse (serde.print value ++ [newline]) = .error error

/-- What the store can give back: JSON values within the parser's limit once they are in
their envelope, and no null output. -/
structure Replayable (event : RuntimeEvent) : Prop where
  shallow : event.Shallow 123
  output : ∀ receipt, event = .toolReceiptRecorded receipt → receipt.output ≠ some .null

theorem readBack_eq_self {envelope : EventEnvelope} : envelope.readBack = envelope ↔
    ∀ receipt, envelope.event = .toolReceiptRecorded receipt → receipt.output ≠ some .null := by
  obtain ⟨id, sequence, atUnixMs, threadId, turnId, event⟩ := envelope
  cases event with
  | toolReceiptRecorded receipt =>
    obtain ⟨callId, toolName, status, action, output, error⟩ := receipt
    simp [EventEnvelope.readBack, RuntimeEvent.readBack, ToolReceipt.readBack]
    cases output with
    | none => simp
    | some output =>
      by_cases null : output = .null
      · simp [null]
      · simp [null]
  | threadStarted | turnStarted | turnCancelled | userMessage _ | modelRequestStarted _
  | toolPrepared _ | approvalRequested _ | approvalResolved _ _ | toolExecutionStarted _
  | contextCompiled _ _ _ _ | assistantMessage _ _ _ _ | hookFailed _ _ _ | turnCompleted _
  | turnFailed _ => simp [EventEnvelope.readBack, RuntimeEvent.readBack]

theorem replayable_iff {envelope : EventEnvelope} : Replayable envelope.event ↔
    envelope.toJson.depth ≤ recursionLimit ∧ envelope.readBack = envelope := by
  have depth : envelope.toJson.depth ≤ 123 + 4 ↔ envelope.event.Shallow 123 :=
    EventEnvelope.depth_le
  rw [readBack_eq_self]
  constructor
  · intro replayable
    exact ⟨depth.mpr replayable.shallow, replayable.output⟩
  · intro holds
    exact ⟨depth.mp holds.1, holds.2⟩

namespace SerdeJson

variable {serde : SerdeJson} {printed : Json.Value → Prop} {event : EventEnvelope}

theorem Documented.content (documented : serde.Documented printed) (question : printed event.toJson) :
    (serde.codec.encode event).all isAsciiWhitespace = false :=
  Codec.not_blank (documented.object _ question)

theorem Documented.decodes (documented : serde.Documented printed) (question : printed event.toJson)
    (shallow : event.toJson.depth ≤ recursionLimit) :
    serde.codec.decode (serde.codec.encode event ++ [newline]) = .ok event.readBack := by
  simp [codec, documented.exact _ question shallow, EventEnvelope.fromJson_toJson]

theorem Documented.rejects (documented : serde.Documented printed) (question : printed event.toJson)
    (deep : recursionLimit < event.toJson.depth) :
    ∃ error, serde.codec.decode (serde.codec.encode event ++ [newline]) = .error error := by
  obtain ⟨error, parsed⟩ := documented.limited _ question deep
  exact ⟨error, by simp [codec, parsed]⟩

end SerdeJson

/-! ## A sample -/

namespace Sample

/-- The receipt of a call that put out null. -/
def nullOutput : JsonlEventStore.Append :=
  ⟨⟨"event_1"⟩, 1700000000000, ⟨"thread_1"⟩, some ⟨"turn_1"⟩,
    .toolReceiptRecorded (.succeeded
      ⟨⟨"call_1"⟩, ⟨"fetch", .object [], .readOnly, .safe, none⟩⟩ .null)⟩

def nullOutputText : Bytes :=
  ("\x7b\"id\":\"event_1\",\"sequence\":0,\"at_unix_ms\":1700000000000," ++
    "\"thread_id\":\"thread_1\",\"turn_id\":\"turn_1\"," ++
    "\"event\":\x7b\"type\":\"tool_receipt_recorded\"," ++
    "\"receipt\":\x7b\"call_id\":\"call_1\",\"tool_name\":\"fetch\",\"status\":\"succeeded\"," ++
    "\"action\":\x7b\"tool_name\":\"fetch\",\"arguments\":\x7b\x7d,\"effect\":\"read_only\"," ++
    "\"retry_safety\":\"safe\"\x7d,\"output\":null\x7d\x7d\x7d").toUTF8.data.toList

/-- What serde_json does with this receipt as the first event of a log. -/
def nullOutputSerde : SerdeJson where
  print value := if value = (nullOutput.envelope 0).toJson then nullOutputText else []
  parse bytes :=
    if bytes.rdropWhile (· == newline) = nullOutputText then .ok (nullOutput.envelope 0).toJson
    else .error ⟨bytes.isPrefixOf nullOutputText, "not the receipt"⟩
  rejection _ := "not an envelope"

theorem nullOutputSerde_documented :
    nullOutputSerde.Documented (· = (nullOutput.envelope 0).toJson) where
  oneLine := by
    intro value printed
    subst printed
    decide
  object := by
    intro members printed
    rw [printed]
    decide
  exact := by
    intro value printed _
    subst printed
    have known : (nullOutputText ++ [newline]).rdropWhile (· == newline) = nullOutputText := by
      decide +kernel
    simp only [nullOutputSerde, ↓reduceIte, known]
  limited := by
    intro value printed deep
    subst printed
    have shallow : (nullOutput.envelope 0).toJson.depth ≤ recursionLimit := by decide
    exact absurd deep (Nat.not_lt_of_le shallow)

end Sample

namespace JsonlEventStore

/-! ## Appends without a failure -/

/-- The envelopes of appends that begin at a sequence number. -/
def stamped (first : Nat) : List Append → List EventEnvelope
  | [] => []
  | entry :: entries => entry.envelope first :: stamped (first + 1) entries

theorem sequence_stamped {entries : List Append} {first : Nat} {event : EventEnvelope}
    (member : event ∈ stamped first entries) : first ≤ event.sequence := by
  induction entries generalizing first with
  | nil => cases member
  | cons entry entries ih =>
    cases List.mem_cons.mp member with
    | inl here =>
      rw [here]
      exact Nat.le_refl first
    | inr later => exact Nat.le_of_succ_le (ih later)

theorem stamped_ordered (first : Nat) (entries : List Append) :
    (stamped first entries).Pairwise fun a b => a.sequence < b.sequence := by
  induction entries generalizing first with
  | nil => exact List.Pairwise.nil
  | cons entry entries ih =>
    rw [stamped, List.pairwise_cons]
    exact ⟨fun event member => sequence_stamped member, ih (first + 1)⟩

theorem stamped_events (first : Nat) (entries : List Append) :
    (stamped first entries).map EventEnvelope.event = entries.map Append.event := by
  induction entries generalizing first with
  | nil => rfl
  | cons entry entries ih =>
    rw [stamped, List.map_cons, List.map_cons, ih]
    rfl

/-- Each record is behind the ones before it. -/
theorem run_appends (codec : Codec) (entries : List Append) (session : Session)
    (running : session.store.writeFailed = false) :
    ∃ session', session.run codec (entries.map fun entry => .append entry none) = .ok session' ∧
      session'.log = session.log ++ stamped session.store.nextSequence entries ∧
      session'.disk.file = session.disk.file ++
        terminated newline ((stamped session.store.nextSequence entries).map codec.encode) := by
  induction entries generalizing session with
  | nil => exact ⟨session, rfl, by simp [stamped], by simp [stamped]⟩
  | cons entry entries ih =>
    obtain ⟨session', ran, log, file⟩ := ih (session.acknowledge codec entry) running
    refine ⟨session', ?_, ?_, ?_⟩
    · rw [List.map_cons, Session.run, Session.step_acknowledge codec running]
      exact ran
    · rw [log, stamped]
      simp [Session.acknowledge]
    · rw [file, stamped]
      simp [Session.acknowledge]

/-! ## Loading them again -/

/-- The log opens, and every thread is loaded as it was appended. -/
def ReadsBack (codec : Codec) (disk : Disk) (log : List EventEnvelope) : Prop :=
  ∃ store disk', openFile codec disk = (.ok store, disk') ∧
    ∀ threadId, store.loadThread threadId = log.filter fun event => event.threadId = threadId

section Loading

variable {serde : SerdeJson} {printed : Json.Value → Prop} {log : List EventEnvelope}
variable {event : EventEnvelope}

theorem clean_printed (documented : serde.Documented printed)
    (questions : ∀ event ∈ log, printed event.toJson) :
    ∀ body ∈ log.map serde.codec.encode, newline ∉ body := by
  intro body member
  obtain ⟨event, present, rfl⟩ := List.mem_map.mp member
  exact documented.oneLine _ (questions event present)

theorem openFile_shallow (documented : serde.Documented printed)
    (questions : ∀ event ∈ log, printed event.toJson) (archives : List Bytes)
    (shallow : ∀ event ∈ log, event.toJson.depth ≤ recursionLimit) :
    openFile serde.codec ⟨terminated newline (log.map serde.codec.encode), archives⟩ =
      (.ok (ofEvents none (log.map EventEnvelope.readBack)),
        ⟨terminated newline (log.map serde.codec.encode), archives⟩) := by
  obtain ⟨reading, read, events⟩ := readLines_decoded .start
    (fun event member => documented.content (questions event member))
    (fun event member => documented.decodes (questions event member) (shallow event member))
  rw [openFile_terminated archives (clean_printed documented questions), read]
  simp [events, Reading.start]

/-- One record that is too deep keeps the whole log from opening. -/
theorem openFile_deep (documented : serde.Documented printed)
    (questions : ∀ event ∈ log, printed event.toJson) (archives : List Bytes)
    (member : event ∈ log) (deep : recursionLimit < event.toJson.depth) :
    ∃ error, (openFile serde.codec
      ⟨terminated newline (log.map serde.codec.encode), archives⟩).1 = .error error := by
  obtain ⟨error, read⟩ := readLines_rejected .start
    (fun event member => documented.content (questions event member)) member
    (documented.rejects (questions event member) deep)
  exact ⟨error, by rw [openFile_terminated archives (clean_printed documented questions), read]⟩

/-- Reading back changes neither the order nor the thread of an event. -/
theorem loadThread_readBack (tail : Option Nat) (threadId : ThreadId)
    (ordered : log.Pairwise fun a b => a.sequence < b.sequence) :
    (ofEvents tail (log.map EventEnvelope.readBack)).loadThread threadId =
      (log.filter fun event => event.threadId = threadId).map EventEnvelope.readBack := by
  have ordered : (log.map EventEnvelope.readBack).Pairwise fun a b => a.sequence < b.sequence :=
    List.pairwise_map.mpr ordered
  rw [loadThread, events_ofEvents ordered, List.filter_map]
  rfl

theorem readsBack_iff (documented : serde.Documented printed)
    (questions : ∀ event ∈ log, printed event.toJson) (archives : List Bytes)
    (ordered : log.Pairwise fun a b => a.sequence < b.sequence) :
    ReadsBack serde.codec ⟨terminated newline (log.map serde.codec.encode), archives⟩ log ↔
      ∀ event ∈ log, Replayable event.event := by
  constructor
  · intro readsBack
    obtain ⟨store, disk', opens, loads⟩ := readsBack
    have shallow : ∀ event ∈ log, event.toJson.depth ≤ recursionLimit := by
      intro event member
      by_contra deep
      obtain ⟨error, fails⟩ :=
        openFile_deep documented questions archives member (Nat.lt_of_not_le deep)
      rw [opens] at fails
      cases fails
    rw [openFile_shallow documented questions archives shallow] at opens
    cases opens
    intro event member
    -- Its own thread was loaded as it was appended.
    have loaded := loads event.threadId
    rw [loadThread_readBack none event.threadId ordered] at loaded
    have same := List.map_inj_left.mp (loaded.trans (List.map_id _).symm) event
      (List.mem_filter.mpr ⟨member, decide_eq_true rfl⟩)
    exact replayable_iff.mpr ⟨shallow event member, same⟩
  · intro replayable
    have shallow : ∀ event ∈ log, event.toJson.depth ≤ recursionLimit :=
      fun event member => (replayable_iff.mp (replayable event member)).1
    refine ⟨_, _, openFile_shallow documented questions archives shallow, ?_⟩
    intro threadId
    rw [loadThread_readBack none threadId ordered, List.map_congr_left, List.map_id]
    intro event member
    exact (replayable_iff.mp (replayable event (List.mem_filter.mp member).1)).2

/-- Appends without a failure are read back exactly if every event is replayable. -/
theorem reads_back_iff (documented : serde.Documented printed) (entries : List Append)
    (questions : ∀ event ∈ stamped 0 entries, printed event.toJson) :
    ∃ session, Session.created.run serde.codec (entries.map fun entry => .append entry none) =
        .ok session ∧
      session.log = stamped 0 entries ∧
      (ReadsBack serde.codec session.disk (stamped 0 entries) ↔
        ∀ entry ∈ entries, Replayable entry.event) := by
  obtain ⟨session, ran, log, file⟩ := run_appends serde.codec entries Session.created rfl
  refine ⟨session, ran, log, ?_⟩
  have file : session.disk.file = terminated newline ((stamped 0 entries).map serde.codec.encode) :=
    file
  have disk : session.disk = ⟨_, session.disk.archives⟩ := rfl
  rw [disk, file, readsBack_iff documented questions session.disk.archives
    (stamped_ordered 0 entries)]
  have events := stamped_events 0 entries
  constructor
  · intro replayable entry member
    have present : entry.event ∈ (stamped 0 entries).map EventEnvelope.event := by
      rw [events]
      exact List.mem_map_of_mem member
    obtain ⟨event, member, same⟩ := List.mem_map.mp present
    rw [← same]
    exact replayable event member
  · intro replayable event member
    have present : event.event ∈ entries.map Append.event := by
      rw [← events]
      exact List.mem_map_of_mem member
    obtain ⟨entry, member, same⟩ := List.mem_map.mp present
    rw [← same]
    exact replayable entry member

/-- The receipt of a call that put out null is acknowledged, and loaded without its output. -/
theorem null_output_lost :
    Sample.nullOutputSerde.Documented (· = (Sample.nullOutput.envelope 0).toJson) ∧
      ∃ session, Session.created.run Sample.nullOutputSerde.codec
          [.append Sample.nullOutput none] = .ok session ∧
        session.log = [Sample.nullOutput.envelope 0] ∧
        ¬ ReadsBack Sample.nullOutputSerde.codec session.disk [Sample.nullOutput.envelope 0] := by
  refine ⟨Sample.nullOutputSerde_documented,
    Session.created.acknowledge Sample.nullOutputSerde.codec Sample.nullOutput, rfl, rfl, ?_⟩
  intro readsBack
  obtain ⟨store, disk', opens, loads⟩ := readsBack
  have loaded : (openFile Sample.nullOutputSerde.codec
      (Session.created.acknowledge Sample.nullOutputSerde.codec Sample.nullOutput).disk).1.toOption.map
        (loadThread · ⟨"thread_1"⟩) ≠ some [Sample.nullOutput.envelope 0] := by
    decide +kernel
  rw [opens] at loaded
  exact loaded (congrArg some (loads ⟨"thread_1"⟩))

theorem reads_back_iff_null :
    ∃ session, Session.created.run Sample.nullOutputSerde.codec
          [.append Sample.nullOutput none] = .ok session ∧
      session.log = [Sample.nullOutput.envelope 0] ∧
      (ReadsBack Sample.nullOutputSerde.codec session.disk [Sample.nullOutput.envelope 0] ↔
        ∀ entry ∈ [Sample.nullOutput], Replayable entry.event) := by
  refine reads_back_iff Sample.nullOutputSerde_documented [Sample.nullOutput] ?_
  intro event member
  rw [List.mem_singleton.mp member]

end Loading

end JsonlEventStore

end Nausicaa.Store
