import Nausicaa.Store.Reopen

/-! # Stores that fail and are reopened

Runs of appends and reopenings in which any append may fail after any part of its record
reached the file.  Whatever was acknowledged is loaded again, and a failed append is
loaded exactly if its record reached the file whole (`run_durable`). -/

namespace Nausicaa.Store

open Nausicaa.Core
open Jsonl (terminated)

/-- What serde_json documents about the envelopes in question: they are read back, printed
on one line as an object, and an input that ends within one is recognized as such. -/
structure Codec.Faithful (codec : Codec) (known : EventEnvelope → Prop) : Prop where
  decodes : ∀ event, known event → codec.decode (codec.encode event) = .ok event
  oneLine : ∀ event, known event → newline ∉ codec.encode event
  object : ∀ event, known event → (codec.encode event).head? = some 0x7B
  prefixes : ∀ event, known event → ∀ length, 0 < length → length < (codec.encode event).length →
    ∃ error, codec.decode ((codec.encode event).take length) = .error error ∧ error.isEof = true
  trailing : codec.IgnoresNewline

namespace Codec

variable {codec : Codec} {known : EventEnvelope → Prop} {log : List EventEnvelope}
variable {event : EventEnvelope}

/-- A record starts with a brace and is therefore no blank line. -/
theorem not_blank {bytes : Bytes} (object : bytes.head? = some 0x7B) :
    bytes.all isAsciiWhitespace = false := by
  cases bytes with
  | nil => cases object
  | cons byte bytes =>
    cases object
    rfl

theorem Faithful.head_take (faithful : codec.Faithful known) (question : known event)
    {length : Nat} (some : 0 < length) :
    ((codec.encode event).take length).head? = Option.some 0x7B := by
  have object := faithful.object event question
  obtain ⟨length, rfl⟩ := Nat.exists_eq_add_of_lt some
  cases encoded : codec.encode event with
  | nil => rw [encoded] at object; cases object
  | cons byte bytes =>
    rw [encoded] at object
    simpa using object

theorem Faithful.clean (faithful : codec.Faithful known)
    (questions : ∀ event ∈ log, known event) : ∀ body ∈ log.map codec.encode, newline ∉ body := by
  intro body member
  obtain ⟨event, present, rfl⟩ := List.mem_map.mp member
  exact faithful.oneLine event (questions event present)

end Codec

namespace Sample

theorem startedText_length : ∀ sequence ∈ [0, 1, 2], (startedText sequence).length = 113 := by
  decide

/-- A shorter input is none of the three texts. -/
theorem startedCodec_short {bytes : Bytes} (short : bytes.length < 113) :
    startedCodec.decode bytes = .error
      ⟨[0, 1, 2].any fun sequence => bytes.isPrefixOf (startedText sequence),
        "not an envelope"⟩ := by
  have unknown : [0, 1, 2].find? (fun sequence =>
      bytes.rdropWhile (· == newline) = startedText sequence) = none := by
    rw [List.find?_eq_none]
    intro sequence three same
    have length := startedText_length sequence three
    have atMost := (List.rdropWhile_prefix (fun byte => byte == newline) bytes).length_le
    rw [of_decide_eq_true same, length] at atMost
    omega
  simp only [startedCodec, unknown]

theorem startedCodec_faithful : startedCodec.Faithful
    fun event => ∃ sequence < 3, event = started.envelope sequence where
  decodes := by
    intro event question
    obtain ⟨sequence, three, rfl⟩ := question
    have decoded : ∀ sequence < 3, startedCodec.decode (startedText sequence) =
        .ok (started.envelope sequence) := by decide
    exact decoded sequence three
  oneLine := by
    intro event question
    obtain ⟨sequence, three, rfl⟩ := question
    have oneLine : ∀ sequence < 3, newline ∉ startedText sequence := by decide
    exact oneLine sequence three
  object := by
    intro event question
    obtain ⟨sequence, three, rfl⟩ := question
    have object : ∀ sequence < 3, (startedText sequence).head? = some 0x7B := by decide
    exact object sequence three
  prefixes := by
    intro event question length some part
    obtain ⟨sequence, three, rfl⟩ := question
    have three : sequence ∈ [0, 1, 2] := by
      simp
      omega
    have length := startedText_length sequence three
    refine ⟨_, startedCodec_short ?_, ?_⟩
    · have part : _ < (startedText sequence).length := part
      rw [List.length_take]
      omega
    · rw [List.any_eq_true]
      exact ⟨sequence, three, List.isPrefixOf_iff_prefix.mpr (List.take_prefix _ _)⟩
  trailing := startedCodec_ignoresNewline

end Sample

namespace JsonlEventStore

/-! ## Sessions -/

inductive Action where
  | append (entry : Append) (fault : Option Fault)
  | reopen

/-- A store on its disk.  `log` are the envelopes whose append was acknowledged, and those
whose append failed after the whole encoded envelope had reached the file. -/
structure Session where
  store : JsonlEventStore
  disk : Disk
  log : List EventEnvelope

namespace Session

/-- The store that `open` gives for a file that did not exist. -/
def created : Session := ⟨ofEvents none [], ⟨[], []⟩, []⟩

theorem created_opened (codec : Codec) :
    openFile codec ⟨[], []⟩ = (.ok created.store, created.disk) := rfl

variable (codec : Codec)

/-- What an append that was not acknowledged left in the file as a whole. -/
def reached (session : Session) (entry : Append) (fault : Option Fault) : List EventEnvelope :=
  match session.store.writeFailed, fault with
  | false, some fault =>
    let envelope := entry.envelope session.store.nextSequence
    if (codec.encode envelope).length ≤ fault.written then [envelope] else []
  | _, _ => []

def step (session : Session) : Action → Except StoreError Session
  | .append entry fault =>
    match session.store.append codec session.disk entry fault with
    | (.ok envelope, store, disk) => .ok ⟨store, disk, session.log ++ [envelope]⟩
    | (.error _, store, disk) =>
      .ok ⟨store, disk, session.log ++ session.reached codec entry fault⟩
  | .reopen =>
    match openFile codec session.disk with
    | (.ok store, disk) => .ok ⟨store, disk, session.log⟩
    | (.error error, _) => .error error

def run (session : Session) : List Action → Except StoreError Session
  | [] => .ok session
  | action :: actions =>
    match session.step codec action with
    | .ok session' => run session' actions
    | .error error => .error error

/-- The session after an append that went through. -/
def acknowledge (session : Session) (entry : Append) : Session where
  store := { session.store with
    nextSequence := session.store.nextSequence + 1
    events := session.store.events ++ [entry.envelope session.store.nextSequence] }
  disk := { session.disk with
    file := session.disk.file ++
      (codec.encode (entry.envelope session.store.nextSequence) ++ [newline]) }
  log := session.log ++ [entry.envelope session.store.nextSequence]

theorem step_acknowledge {session : Session} {entry : Append}
    (running : session.store.writeFailed = false) :
    session.step codec (.append entry none) = .ok (session.acknowledge codec entry) := by
  simp [step, JsonlEventStore.append, running, acknowledge]

end Session

/-! ## What the file holds -/

/-- The records of `log`, and behind them possibly a part of one more record; the last
record may lack its newline. -/
inductive Holds (codec : Codec) (known : EventEnvelope → Prop) : List EventEnvelope → Bytes → Prop
  | whole (log : List EventEnvelope) : Holds codec known log (terminated newline (log.map codec.encode))
  | torn (log : List EventEnvelope) (event : EventEnvelope) (length : Nat) (question : known event)
      (some : 0 < length) (part : length < (codec.encode event).length) :
      Holds codec known log
        (terminated newline (log.map codec.encode) ++ (codec.encode event).take length)
  | unterminated (log : List EventEnvelope) (event : EventEnvelope) :
      Holds codec known (log ++ [event])
        (terminated newline (log.map codec.encode) ++ codec.encode event)

section Reading

variable {codec : Codec} {known : EventEnvelope → Prop} {log : List EventEnvelope}
variable {event : EventEnvelope} {file : Bytes}

/-- The loop reads every record it can decode, as what it decodes to. -/
theorem readLines_decoded {decoded : EventEnvelope → EventEnvelope} (reading : Reading)
    (content : ∀ event ∈ log, (codec.encode event).all isAsciiWhitespace = false)
    (decodes : ∀ event ∈ log,
      codec.decode (codec.encode event ++ [newline]) = .ok (decoded event)) :
    ∃ reading', readLines codec ((log.map codec.encode).map (· ++ [newline])) reading = .ok reading' ∧
      reading'.events = reading.events ++ log.map decoded := by
  induction log generalizing reading with
  | nil => exact ⟨reading, rfl, by simp⟩
  | cons event log ih =>
    rw [List.forall_mem_cons] at content decodes
    obtain ⟨reading', read, events⟩ :=
      ih (reading.accept (codec.encode event ++ [newline]) [decoded event]) content.2 decodes.2
    refine ⟨reading', ?_, ?_⟩
    · rw [List.map_cons, List.map_cons, readLines, List.all_append, content.1, decodes.1]
      exact read
    · simpa [Reading.accept] using events

/-- The loop stops with an error at a terminated record it cannot decode. -/
theorem readLines_rejected (reading : Reading)
    (content : ∀ event ∈ log, (codec.encode event).all isAsciiWhitespace = false)
    (member : event ∈ log)
    (rejects : ∃ error, codec.decode (codec.encode event ++ [newline]) = .error error) :
    ∃ error, readLines codec ((log.map codec.encode).map (· ++ [newline])) reading =
      .error error := by
  induction log generalizing reading with
  | nil => cases member
  | cons first log ih =>
    rw [List.forall_mem_cons] at content
    rw [List.map_cons, List.map_cons, readLines, List.all_append, content.1]
    cases decoded : codec.decode (codec.encode first ++ [newline]) with
    | error error => simp
    | ok event' =>
      cases List.mem_cons.mp member with
      | inl same =>
        obtain ⟨error, rejected⟩ := rejects
        rw [← same, rejected] at decoded
        cases decoded
      | inr later => exact ih _ content.2 later

/-- The loop reads back what was encoded. -/
theorem readLines_encoded (reading : Reading) (faithful : codec.Faithful known)
    (questions : ∀ event ∈ log, known event) :
    ∃ reading', readLines codec ((log.map codec.encode).map (· ++ [newline])) reading = .ok reading' ∧
      reading'.events = reading.events ++ log := by
  have content : ∀ event ∈ log, (codec.encode event).all isAsciiWhitespace = false :=
    fun event member => Codec.not_blank (faithful.object event (questions event member))
  have decodes : ∀ event ∈ log,
      codec.decode (codec.encode event ++ [newline]) = .ok (id event) :=
    fun event member =>
      faithful.trailing _ _ (faithful.decodes event (questions event member))
  simpa using readLines_decoded reading content decodes

/-- A file that holds a log opens to this log, and is left with its whole records. -/
theorem Holds.opens (faithful : codec.Faithful known) (questions : ∀ event ∈ log, known event)
    (holds : Holds codec known log file) (archives : List Bytes) :
    ∃ tail archives', openFile codec ⟨file, archives⟩ =
      (.ok (ofEvents tail log), ⟨terminated newline (log.map codec.encode), archives'⟩) := by
  cases holds with
  | whole =>
    obtain ⟨reading, read, events⟩ := readLines_encoded .start faithful questions
    rw [openFile_terminated archives (faithful.clean questions), read]
    exact ⟨none, archives, by simp [events, Reading.start]⟩
  | torn _ event length question some part =>
    obtain ⟨reading, read, events⟩ := readLines_encoded .start faithful questions
    obtain ⟨error, decoded, eof⟩ := faithful.prefixes event question length some part
    have head := faithful.head_take question some
    have nonempty : (codec.encode event).take length ≠ [] := by
      intro empty
      rw [empty] at head
      cases head
    have cleanLast : newline ∉ (codec.encode event).take length :=
      fun member => faithful.oneLine event question (List.mem_of_mem_take member)
    rw [openFile_unterminated archives (faithful.clean questions) cleanLast nonempty, read]
    refine ⟨Option.some archives.length, archives ++ [(codec.encode event).take length], ?_⟩
    simp [Codec.not_blank head, decoded, eof, events, Reading.start]
  | unterminated before event =>
    have question : known event := questions event (by simp)
    have earlier : ∀ event ∈ before, known event :=
      fun event member => questions event (List.mem_append_left _ member)
    obtain ⟨reading, read, events⟩ := readLines_encoded .start faithful earlier
    have head := faithful.object event question
    have nonempty : codec.encode event ≠ [] := by
      intro empty
      rw [empty] at head
      cases head
    rw [openFile_unterminated archives (faithful.clean earlier) (faithful.oneLine event question)
      nonempty, read]
    refine ⟨none, archives, ?_⟩
    simp [Codec.not_blank head, faithful.decodes event question, events, Reading.start,
      Jsonl.terminated_concat]

theorem terminated_record (codec : Codec) (log : List EventEnvelope) (event : EventEnvelope) :
    terminated newline (log.map codec.encode) ++ (codec.encode event ++ [newline]) =
      terminated newline ((log ++ [event]).map codec.encode) := by
  simp [Jsonl.terminated_append]

/-- What a failed append leaves behind: its event is held if its whole encoding arrived. -/
theorem holds_faulted (question : known event) (written : Nat) :
    Holds codec known
      (log ++ if (codec.encode event).length ≤ written then [event] else [])
      (terminated newline (log.map codec.encode) ++
        (codec.encode event ++ [newline]).take written) := by
  obtain nothing | part | all | newlineToo : written = 0 ∧ 0 < (codec.encode event).length ∨
      (0 < written ∧ written < (codec.encode event).length) ∨
      written = (codec.encode event).length ∨ (codec.encode event).length < written := by omega
  · obtain ⟨rfl, nonempty⟩ := nothing
    have short : ¬ (codec.encode event).length ≤ 0 := by omega
    rw [if_neg short, List.append_nil, List.take_zero, List.append_nil]
    exact Holds.whole log
  · have short : ¬ (codec.encode event).length ≤ written := by omega
    rw [if_neg short, List.append_nil, List.take_append_of_le_length (by omega)]
    exact Holds.torn log event written question part.1 part.2
  · rw [if_pos (Nat.le_of_eq all.symm), List.take_append_of_le_length (by omega), all,
      List.take_length]
    exact Holds.unterminated log event
  · rw [if_pos (Nat.le_of_lt newlineToo), List.take_of_length_le (by simp; omega),
      terminated_record]
    exact Holds.whole _

end Reading

/-! ## Sequence numbers -/

section Sequences

variable {log : List EventEnvelope} {event : EventEnvelope} {tail : Option Nat} {bound : Nat}

/-- Events in the order of their numbers are not moved. -/
theorem events_ofEvents (ordered : log.Pairwise fun a b => a.sequence < b.sequence) :
    (ofEvents tail log).events = log :=
  List.Pairwise.insertionSort_eq (ordered.imp fun less => Nat.le_of_lt less)

theorem sequence_lt_next (member : event ∈ log) :
    event.sequence < (ofEvents tail log).nextSequence := by
  cases largest : (log.map EventEnvelope.sequence).max? with
  | none =>
    rw [List.max?_eq_none_iff, List.map_eq_nil_iff] at largest
    rw [largest] at member
    cases member
  | some sequence =>
    have atMost := (List.max?_eq_some_iff.mp largest).2 event.sequence (List.mem_map_of_mem member)
    simp [ofEvents, largest]
    omega

theorem next_le (counted : ∀ event ∈ log, event.sequence < bound) :
    (ofEvents tail log).nextSequence ≤ bound := by
  cases largest : (log.map EventEnvelope.sequence).max? with
  | none => simp [ofEvents, largest]
  | some sequence =>
    obtain ⟨event, member, same⟩ := List.mem_map.mp (List.max?_eq_some_iff.mp largest).1
    have less := counted event member
    simp [ofEvents, largest]
    omega

end Sequences

/-! ## Runs -/

/-- What holds of a session after some actions. -/
structure Session.Intact (codec : Codec) (known : EventEnvelope → Prop) (actions : Nat)
    (session : Session) : Prop where
  holds : Holds codec known session.log session.disk.file
  questions : ∀ event ∈ session.log, known event
  ordered : session.log.Pairwise fun a b => a.sequence < b.sequence
  counted : ∀ event ∈ session.log, event.sequence < actions
  next : session.store.nextSequence ≤ actions
  below : ∀ event ∈ session.log, session.store.writeFailed = false →
    event.sequence < session.store.nextSequence
  healthy : session.store.writeFailed = false →
    session.disk.file = terminated newline (session.log.map codec.encode) ∧
      session.store.events = session.log

section Runs

variable {codec : Codec} {known : EventEnvelope → Prop} {actions : Nat} {session : Session}
variable {entry : Append} {fault : Option Fault}

theorem Session.Intact.questions_snoc (intact : session.Intact codec known actions)
    (question : known (entry.envelope session.store.nextSequence)) :
    ∀ event ∈ session.log ++ [entry.envelope session.store.nextSequence], known event := by
  intro event member
  cases List.mem_append.mp member with
  | inl earlier => exact intact.questions event earlier
  | inr last => rw [List.mem_singleton.mp last]; exact question

/-- One more event in the log, with the number that was next. -/
theorem Session.Intact.ordered_snoc (intact : session.Intact codec known actions)
    (running : session.store.writeFailed = false) :
    (session.log ++ [entry.envelope session.store.nextSequence]).Pairwise
      fun a b => a.sequence < b.sequence := by
  rw [List.pairwise_append]
  refine ⟨intact.ordered, List.pairwise_singleton _ _, ?_⟩
  intro event member last isLast
  rw [List.mem_singleton.mp isLast]
  exact intact.below event member running

theorem Session.Intact.below_snoc (intact : session.Intact codec known actions)
    (running : session.store.writeFailed = false) :
    ∀ event ∈ session.log ++ [entry.envelope session.store.nextSequence],
      event.sequence < session.store.nextSequence + 1 := by
  intro event member
  cases List.mem_append.mp member with
  | inl earlier => exact Nat.lt_succ_of_lt (intact.below event earlier running)
  | inr last => rw [List.mem_singleton.mp last]; exact Nat.lt_succ_self _

theorem Session.Intact.append (intact : session.Intact codec known actions)
    (question : known (entry.envelope session.store.nextSequence)) :
    ∃ session', session.step codec (.append entry fault) = .ok session' ∧
      session'.Intact codec known (actions + 1) := by
  cases failed : session.store.writeFailed with
  | true =>
    refine ⟨session, ?_, ?_⟩
    · simp [Session.step, JsonlEventStore.append, Session.reached, failed]
    · exact { intact with
        counted := fun event member => Nat.lt_succ_of_lt (intact.counted event member)
        next := Nat.le_succ_of_le intact.next }
  | false =>
    obtain ⟨whole, loaded⟩ := intact.healthy failed
    have next := intact.next
    cases fault with
    | none =>
      refine ⟨_, Session.step_acknowledge codec failed, ?_⟩
      have record := terminated_record codec session.log
        (entry.envelope session.store.nextSequence)
      exact {
        holds := by
          show Holds codec known _ (session.disk.file ++ _)
          rw [whole, record]
          exact Holds.whole _
        questions := intact.questions_snoc question
        ordered := intact.ordered_snoc failed
        counted := fun event member =>
          Nat.lt_of_lt_of_le (intact.below_snoc failed event member) (Nat.succ_le_succ next)
        next := Nat.succ_le_succ next
        below := fun event member _ => intact.below_snoc failed event member
        healthy := by
          intro _
          refine ⟨?_, ?_⟩
          · show session.disk.file ++ _ = _
            rw [whole, record]
            rfl
          · show session.store.events ++ _ = _
            rw [loaded]
            rfl }
    | some fault =>
      refine ⟨_, by simp [Session.step, JsonlEventStore.append, Session.reached, failed]; rfl, ?_⟩
      -- Whether the record arrived or not, the log is part of the log that has it.
      have part : (session.log ++
          if (codec.encode (entry.envelope session.store.nextSequence)).length ≤ fault.written then
            [entry.envelope session.store.nextSequence] else []).Sublist
          (session.log ++ [entry.envelope session.store.nextSequence]) := by
        apply List.Sublist.append_left
        split
        next => exact List.Sublist.refl _
        next => exact List.nil_sublist _
      exact {
        holds := by
          show Holds codec known _ (session.disk.file ++ _)
          rw [whole]
          exact holds_faulted question fault.written
        questions := fun event member =>
          intact.questions_snoc question event (part.subset member)
        ordered := (intact.ordered_snoc failed).sublist part
        counted := fun event member =>
          Nat.lt_of_lt_of_le (intact.below_snoc failed event (part.subset member))
            (Nat.succ_le_succ next)
        next := Nat.le_succ_of_le next
        below := fun _ _ running => Bool.noConfusion running
        healthy := fun running => Bool.noConfusion running }

theorem Session.Intact.reopen (faithful : codec.Faithful known)
    (intact : session.Intact codec known actions) :
    ∃ session', session.step codec .reopen = .ok session' ∧
      session'.Intact codec known (actions + 1) := by
  obtain ⟨tail, archives, opened⟩ :=
    intact.holds.opens faithful intact.questions session.disk.archives
  refine ⟨⟨ofEvents tail session.log, _, session.log⟩, by rw [Session.step, opened], ?_⟩
  exact {
    holds := Holds.whole session.log
    questions := intact.questions
    ordered := intact.ordered
    counted := fun event member => Nat.lt_succ_of_lt (intact.counted event member)
    next := Nat.le_succ_of_le (next_le intact.counted)
    below := fun event member _ => sequence_lt_next member
    healthy := fun _ => ⟨rfl, events_ofEvents intact.ordered⟩ }

/-- Every run of appends and reopenings goes through. -/
theorem Session.Intact.run {more : List Action} (faithful : codec.Faithful known)
    (intact : session.Intact codec known actions)
    (questions : ∀ entry fault, .append entry fault ∈ more →
      ∀ sequence < actions + more.length, known (entry.envelope sequence)) :
    ∃ session', session.run codec more = .ok session' ∧
      session'.Intact codec known (actions + more.length) := by
  induction more generalizing session actions with
  | nil => exact ⟨session, rfl, intact⟩
  | cons action more ih =>
    have one : ∃ session', session.step codec action = .ok session' ∧
        session'.Intact codec known (actions + 1) := by
      cases action with
      | append entry fault =>
        have next := intact.next
        exact intact.append (questions entry fault List.mem_cons_self _ (by simp; omega))
      | reopen => exact intact.reopen faithful
    obtain ⟨middle, stepped, kept⟩ := one
    have length : actions + (action :: more).length = actions + 1 + more.length := by
      rw [List.length_cons]
      omega
    rw [length] at questions ⊢
    obtain ⟨session', rest, intact'⟩ := ih kept fun entry fault member =>
      questions entry fault (List.mem_cons_of_mem _ member)
    exact ⟨session', by rw [Session.run, stepped]; exact rest, intact'⟩

theorem created_intact : Session.created.Intact codec known 0 where
  holds := Holds.whole []
  questions := by simp [Session.created]
  ordered := List.Pairwise.nil
  counted := by simp [Session.created]
  next := Nat.le_refl 0
  below := by simp [Session.created]
  healthy _ := ⟨rfl, rfl⟩

/-- What holds after every run: an append that fails stops the instance, which from then on
refuses appends, and reopening gives the log back, whatever the file holds. -/
structure Session.Durable (codec : Codec) (session : Session) : Prop where
  stops : ∀ entry fault,
    (∃ error, (session.store.append codec session.disk entry (some fault)).1 = .error error) ∧
      (session.store.append codec session.disk entry (some fault)).2.1.writeFailed = true
  refuses : session.store.writeFailed = true → ∀ entry fault,
    session.step codec (.append entry fault) = .ok session ∧
      (session.store.append codec session.disk entry fault).1 = .error (.io
        "a previous append failed; reopen the event store before writing")
  reopens : ∃ store disk, openFile codec session.disk = (.ok store, disk) ∧
    store.writeFailed = false ∧ store.events = session.log ∧
    (∀ entry, ∃ envelope, (store.append codec disk entry none).1 = .ok envelope ∧
      ∀ event ∈ session.log, event.sequence < envelope.sequence) ∧
    ∃ store', openFile codec disk = (.ok store', disk) ∧ store'.events = session.log
  ordered : session.log.Pairwise fun a b => a.sequence < b.sequence

theorem Session.Intact.durable (faithful : codec.Faithful known)
    (intact : session.Intact codec known actions) : session.Durable codec where
  stops entry fault := by
    cases failed : session.store.writeFailed with
    | true => simp [JsonlEventStore.append, failed]
    | false => simp [JsonlEventStore.append, failed]
  refuses failed entry fault := by
    simp [Session.step, JsonlEventStore.append, Session.reached, failed]
  reopens := by
    obtain ⟨tail, archives, opened⟩ :=
      intact.holds.opens faithful intact.questions session.disk.archives
    have again := openFile_lossless faithful.trailing session.disk
    rw [opened] at again
    obtain ⟨store', reopened, same, _⟩ := again.again
    have events : (ofEvents tail session.log).events = session.log :=
      events_ofEvents intact.ordered
    refine ⟨_, _, opened, rfl, events, ?_, store', reopened, same.trans events⟩
    intro entry
    refine ⟨entry.envelope (ofEvents tail session.log).nextSequence, rfl, ?_⟩
    intro event member
    show event.sequence < (ofEvents tail session.log).nextSequence
    exact sequence_lt_next member
  ordered := intact.ordered

/-- Acknowledged events survive every failure of the store: after any run of appends, of
which any may fail at any byte, and of reopenings, the file opens to the events that were
acknowledged and those whose whole record arrived. -/
theorem run_durable (faithful : codec.Faithful known) (actions : List Action)
    (questions : ∀ entry fault, .append entry fault ∈ actions →
      ∀ sequence < actions.length, known (entry.envelope sequence)) :
    ∃ session, Session.created.run codec actions = .ok session ∧ session.Durable codec := by
  obtain ⟨session, ran, intact⟩ := created_intact.run faithful (by simpa using questions)
  exact ⟨session, ran, intact.durable faithful⟩

/-- The first append fails within its record; after a reopening its number is given again. -/
theorem run_durable_torn :
    ∃ session, Session.created.run Sample.startedCodec
        [.append Sample.started (some ⟨20, "disk full"⟩), .reopen,
          .append Sample.started none] = .ok session ∧
      session.Durable Sample.startedCodec := by
  refine run_durable Sample.startedCodec_faithful _ ?_
  intro entry fault member sequence less
  have same : entry = Sample.started := by
    simp at member
    cases member with
    | inl first => exact first.1
    | inr last => exact last.1
  subst same
  exact ⟨sequence, less, rfl⟩

end Runs

end JsonlEventStore

end Nausicaa.Store
