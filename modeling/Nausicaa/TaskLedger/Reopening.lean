import Nausicaa.TaskLedger.Calls

/-! # Opening a ledger again

The records that were appended are replayed when the file is opened.  Replaying one more
record is the append itself (`openFile_record`), and the index that is collected from the
tasks is the one that was kept (`Indexes.ext`). -/

namespace Nausicaa.TaskLedger

/-! ## The index -/

section Index

variable {tasks : Tasks} {id : TaskId} {task : TaskRecord}

/-- No two tasks have the same key. -/
def UniqueKeys (tasks : Tasks) : Prop :=
  ∀ (id id' : TaskId) (task task' : TaskRecord), tasks[id]? = some task →
    tasks[id']? = some task' → task.idempotencyKey = task'.idempotencyKey → id = id'

/-- The index knows the keys of the tasks. -/
def Indexes (index : Std.ExtTreeMap String TaskId) (tasks : Tasks) : Prop :=
  ∀ (key : String) (id : TaskId), index[key]? = some id ↔
    ∃ task, tasks[id]? = some task ∧ task.idempotencyKey = key

theorem indexes_indexOf (keyed : Keyed tasks) (unique : UniqueKeys tasks) :
    Indexes (indexOf tasks) tasks := by
  have distinct : (tasks.toList.map fun entry => (entry.2.idempotencyKey, entry.2.id)).Pairwise
      fun left right => ¬ compare left.1 right.1 = .eq := by
    rw [List.pairwise_map]
    refine List.Pairwise.imp_of_mem ?_ (Std.ExtTreeMap.distinct_keys_toList (t := tasks))
    intro left right memLeft memRight apart same
    have found := Std.ExtTreeMap.mem_toList_iff_getElem?_eq_some.mp memLeft
    have found' := Std.ExtTreeMap.mem_toList_iff_getElem?_eq_some.mp memRight
    have equal := unique _ _ _ _ found found' (Std.LawfulEqOrd.compare_eq_iff_eq.mp same)
    exact apart (Std.LawfulEqOrd.compare_eq_iff_eq.mpr equal)
  have indexed : ∀ (id : TaskId) (task : TaskRecord), tasks[id]? = some task →
      (indexOf tasks)[task.idempotencyKey]? = some id := by
    intro id task found
    have member := List.mem_map_of_mem (f := fun entry : TaskId × TaskRecord =>
      (entry.2.idempotencyKey, entry.2.id))
      (Std.ExtTreeMap.mem_toList_iff_getElem?_eq_some.mpr found)
    rw [indexOf, Std.ExtTreeMap.getElem?_ofList_of_mem Std.ReflCmp.compare_self distinct member]
    exact congrArg some (keyed id task found)
  intro key id
  constructor
  · intro known
    have present : key ∈ indexOf tasks := by
      rw [Std.ExtTreeMap.mem_iff_isSome_getElem?, known]
      rfl
    rw [indexOf, Std.ExtTreeMap.mem_ofList, List.contains_iff_mem, List.map_map] at present
    obtain ⟨entry, member, rfl⟩ := List.mem_map.mp present
    have found := Std.ExtTreeMap.mem_toList_iff_getElem?_eq_some.mp member
    have other := (indexed _ _ found).symm.trans known
    cases other
    exact ⟨entry.2, found, rfl⟩
  · intro known
    obtain ⟨task, found, rfl⟩ := known
    exact indexed id task found

/-- Two indexes of the same tasks are the same. -/
theorem Indexes.ext {index index' : Std.ExtTreeMap String TaskId} (indexes : Indexes index tasks)
    (indexes' : Indexes index' tasks) : index = index' := by
  apply Std.ExtTreeMap.ext_getElem?
  intro key
  exact Option.ext fun id => (indexes key id).trans (indexes' key id).symm

/-- A new task under a new key. -/
theorem UniqueKeys.insert (unique : UniqueKeys tasks)
    (newKey : ∀ (id : TaskId) (other : TaskRecord), tasks[id]? = some other →
      other.idempotencyKey ≠ task.idempotencyKey) :
    UniqueKeys (tasks.insert id task) := by
  intro left right task' task'' foundLeft foundRight same
  rw [getElem?_insert] at foundLeft foundRight
  split at foundLeft
  next first =>
    split at foundRight
    next second => exact first.symm.trans second
    next =>
      cases foundLeft
      exact absurd same.symm (newKey _ _ foundRight)
  next =>
    split at foundRight
    next =>
      cases foundRight
      exact absurd same (newKey _ _ foundLeft)
    next => exact unique _ _ _ _ foundLeft foundRight same

/-- A task that keeps its key. -/
theorem UniqueKeys.update {old : TaskRecord} (unique : UniqueKeys tasks)
    (found : tasks[id]? = some old) (sameKey : task.idempotencyKey = old.idempotencyKey) :
    UniqueKeys (tasks.insert id task) := by
  have kept : ∀ (other : TaskId) (present : TaskRecord), (tasks.insert id task)[other]? =
      some present → ∃ before, tasks[other]? = some before ∧
        before.idempotencyKey = present.idempotencyKey := by
    intro other present there
    rw [getElem?_insert] at there
    split at there
    next same =>
      cases there
      exact ⟨old, same ▸ found, sameKey.symm⟩
    next => exact ⟨present, there, rfl⟩
  intro left right task' task'' foundLeft foundRight same
  obtain ⟨before, found, key⟩ := kept _ _ foundLeft
  obtain ⟨before', found', key'⟩ := kept _ _ foundRight
  exact unique _ _ _ _ found found' (key.trans (same.trans key'.symm))

theorem Indexes.insert {index : Std.ExtTreeMap String TaskId} (indexes : Indexes index tasks)
    (newId : tasks[id]? = none)
    (newKey : ∀ (id : TaskId) (other : TaskRecord), tasks[id]? = some other →
      other.idempotencyKey ≠ task.idempotencyKey) :
    Indexes (index.insert task.idempotencyKey id) (tasks.insert id task) := by
  intro key other
  rw [Std.ExtTreeMap.getElem?_insert, getElem?_insert]
  by_cases sameKey : task.idempotencyKey = key
  · subst sameKey
    rw [if_pos (Std.LawfulEqOrd.compare_eq_iff_eq.mpr rfl)]
    by_cases sameId : id = other
    · simp [sameId]
    · rw [if_neg sameId]
      constructor
      · intro equal
        exact absurd (Option.some.inj equal) sameId
      · intro known
        obtain ⟨present, found, same⟩ := known
        exact absurd same (newKey other present found)
  · rw [if_neg fun equal => sameKey (Std.LawfulEqOrd.compare_eq_iff_eq.mp equal)]
    by_cases sameId : id = other
    · subst sameId
      rw [if_pos rfl, indexes key id, newId]
      simp [sameKey]
    · rw [if_neg sameId]
      exact indexes key other

theorem Indexes.update {index : Std.ExtTreeMap String TaskId} {old : TaskRecord}
    (indexes : Indexes index tasks) (found : tasks[id]? = some old)
    (sameKey : task.idempotencyKey = old.idempotencyKey) :
    Indexes index (tasks.insert id task) := by
  intro key other
  rw [indexes key other, getElem?_insert]
  by_cases same : id = other
  · subst same
    rw [if_pos rfl, found]
    simp [sameKey]
  · rw [if_neg same]

end Index

/-! ## Reading -/

/-- The values in an event that serde_json has to read back. -/
def LedgerEvent.Readable (readable : Json.Value → Prop) : LedgerEvent → Prop
  | .submitted task => readable task.payload ∧ task.result = none
  | .succeeded _ result => readable result
  | .claimed _ _ | .heartbeat _ _ | .failed _ _ | .cancelled _ _ | .markedUnknown _ _
  | .deliveryAcknowledged _ => True

/-- What serde_json documents about envelopes with readable values: they are printed on one
line as an object, and read back. -/
structure Codec.Faithful (codec : Codec) (readable : Json.Value → Prop) : Prop where
  decodes : ∀ envelope : LedgerEnvelope, envelope.event.Readable readable →
    codec.decode (codec.encode envelope) = .ok envelope
  oneLine : ∀ envelope : LedgerEnvelope, envelope.event.Readable readable →
    '\n' ∉ (codec.encode envelope).toList
  object : ∀ envelope : LedgerEnvelope, envelope.event.Readable readable →
    (codec.encode envelope).toList.head? = some '\x7b' ∧
      (codec.encode envelope).toList.getLast? = some '\x7d'

/-- The start of a printed envelope, or all of it. -/
def Codec.Cut (codec : Codec) (readable : Json.Value → Prop) (part : Bytes) : Prop :=
  part ≠ [] ∧ ∃ envelope : LedgerEnvelope, envelope.event.Readable readable ∧
    part <+: Text.encode (codec.encode envelope)

/-- Something is missing of what the parts begin, or there is more than one of them. -/
def Codec.Incomplete (codec : Codec) (readable : Json.Value → Prop) (parts : List Bytes) : Prop :=
  ∀ part, parts = [part] → ∃ envelope : LedgerEnvelope, envelope.event.Readable readable ∧
    part <+: Text.encode (codec.encode envelope) ∧ part ≠ Text.encode (codec.encode envelope)

/-- serde_json reads no envelope from parts of envelopes, one behind the other, unless there is
one of them and it is whole. -/
def Codec.Unjoined (codec : Codec) (readable : Json.Value → Prop) : Prop :=
  ∀ parts : List Bytes, (∀ part ∈ parts, codec.Cut readable part) →
    codec.Incomplete readable parts → ∀ text : String, Text.encode text = parts.flatten →
      ∃ message, codec.decode text = .error message

section Reading

variable {codec : Codec} {readable : Json.Value → Prop} {envelope : LedgerEnvelope}
variable {replay replay' : Replay} {text : String}

theorem encode_newline : Text.encode "\n" = [newline] := by decide

/-- The newline behind a text is taken off, and a text that does not end in `\r` stays. -/
theorem stripLineEnd_newline {last : Char} (ends : text.toList.getLast? = some last)
    (other : last ≠ '\r') : stripLineEnd (text ++ "\n") = text := by
  have reversed : (text ++ "\n").toList.reverse = '\n' :: text.toList.reverse := by simp
  have kept : String.ofList text.toList.reverse.reverse = text := by simp
  have head : text.toList.reverse.head? = some last := by rw [List.head?_reverse, ends]
  rw [stripLineEnd, reversed]
  split
  next rest shown =>
    rw [(List.cons.inj shown).2] at head
    exact absurd (Option.some.inj head).symm other
  next rest _ shown =>
    rw [← (List.cons.inj shown).2]
    exact kept
  next _ other => exact absurd rfl (other text.toList.reverse)

theorem newline_mem_encode (member : '\n' ∈ text.toList) : newline ∈ Text.encode text := by
  rw [Text.encode_eq_flatMap]
  exact List.mem_flatMap.mpr ⟨'\n', member, by decide⟩

/-- A text without a newline is a line as it is. -/
theorem stripLineEnd_of_not_mem (clean : '\n' ∉ text.toList) : stripLineEnd text = text := by
  rw [stripLineEnd]
  split
  next rest shown => exact absurd (List.mem_reverse.mp (by rw [shown]; simp)) clean
  next rest _ shown => exact absurd (List.mem_reverse.mp (by rw [shown]; simp)) clean
  next => rfl

theorem isBlank_object {first : Char} (starts : text.toList.head? = some first)
    (visible : Core.isWhitespace first = false) : Core.isBlank text = false := by
  rw [Core.isBlank]
  cases shown : text.toList with
  | nil =>
    rw [shown] at starts
    cases starts
  | cons char rest =>
    rw [shown] at starts
    cases starts
    simp [visible]

/-- The line of a record gives the printed envelope. -/
theorem readLine_record (faithful : codec.Faithful readable)
    (reads : envelope.event.Readable readable) :
    readLine (LedgerState.record codec envelope) = .ok (codec.encode envelope) := by
  obtain ⟨_, ends⟩ := faithful.object envelope reads
  have decoded : Text.decode (LedgerState.record codec envelope) =
      some (codec.encode envelope ++ "\n") := by
    rw [LedgerState.record, ← encode_newline, ← Text.encode_append, Text.decode_encode]
  rw [readLine, decoded]
  simp only [stripLineEnd_newline ends (by decide)]

theorem newline_not_mem (faithful : codec.Faithful readable)
    (reads : envelope.event.Readable readable) :
    newline ∉ Text.encode (codec.encode envelope) := by
  intro member
  have member : UInt8.ofNat '\n'.toNat ∈ Text.encode (codec.encode envelope) := member
  exact faithful.oneLine envelope reads (Text.mem_encode (by decide) member)

theorem record_line (faithful : codec.Faithful readable)
    (reads : envelope.event.Readable readable) :
    Jsonl.lines newline (LedgerState.record codec envelope) =
      [LedgerState.record codec envelope] := by
  have shown := Jsonl.lines_body (newline_not_mem faithful reads) []
  rwa [Jsonl.lines] at shown

/-- A line with a printed envelope applies its event. -/
theorem Replay.line_read (faithful : codec.Faithful readable)
    (reads : envelope.event.Readable readable) {line : Bytes}
    (shown : readLine line = .ok (codec.encode envelope)) (index nextSequence : Nat)
    {before after : Tasks}
    (applied : applyEvent before envelope.event envelope.atUnixMs = .ok after) :
    Replay.line ⟨before, nextSequence⟩ codec index line =
      .ok ⟨after, max nextSequence (envelope.sequence + 1)⟩ := by
  have visible := isBlank_object (faithful.object envelope reads).1 (by decide)
  rw [Replay.line, shown]
  simp only [visible, Bool.false_eq_true, ↓reduceIte, faithful.decodes envelope reads, applied]

theorem Replay.lines_append {before after : List Bytes} {index : Nat}
    (read : replay.lines codec index before = .ok replay') :
    replay.lines codec index (before ++ after) =
      replay'.lines codec (index + before.length) after := by
  induction before generalizing replay index with
  | nil =>
    cases read
    rfl
  | cons line before ih =>
    rw [Replay.lines] at read
    rw [List.cons_append, Replay.lines]
    cases one : replay.line codec index line with
    | error error =>
      rw [one] at read
      cases read
    | ok next =>
      rw [one] at read
      have rest := ih read
      rw [Nat.add_right_comm] at rest
      exact rest

theorem Replay.line_keyed {index : Nat} {line : Bytes}
    (read : replay.line codec index line = .ok replay') (keyed : Keyed replay.tasks) :
    Keyed replay'.tasks := by
  rw [Replay.line] at read
  split at read
  next error unread => cases read
  next text shown =>
    split at read
    next blank =>
      cases read
      exact keyed
    next full =>
      split at read
      next message undecoded => cases read
      next envelope decoded =>
        split at read
        next error refused => cases read
        next tasks applied =>
          cases read
          exact keyed.applyEvent applied

theorem Replay.lines_keyed {index : Nat} {lines : List Bytes}
    (read : replay.lines codec index lines = .ok replay') (keyed : Keyed replay.tasks) :
    Keyed replay'.tasks := by
  induction lines generalizing replay index with
  | nil =>
    cases read
    exact keyed
  | cons line lines ih =>
    rw [Replay.lines] at read
    split at read
    next error refused => cases read
    next next one => exact ih read (Replay.line_keyed one keyed)

/-- Opening a file that is replayed gives what its lines left. -/
theorem openFile_ok {file : Bytes} {state : LedgerState}
    (opened : openFile codec file = .ok state) :
    Replay.start.lines codec 0 (Jsonl.lines newline file) =
        .ok ⟨state.tasks, state.nextSequence⟩ ∧
      state.file = file ∧ state.idempotency = indexOf state.tasks := by
  rw [openFile] at opened
  split at opened
  next error refused => cases opened
  next replay read =>
    cases opened
    exact ⟨read, rfl, rfl⟩

theorem openFile_keyed {file : Bytes} {state : LedgerState}
    (opened : openFile codec file = .ok state) : Keyed state.tasks :=
  Replay.lines_keyed (openFile_ok opened).1 .empty

/-- Behind an ended file, a record is one more line. -/
theorem read_record (faithful : codec.Faithful readable)
    (reads : envelope.event.Readable readable) {file : Bytes} {tasks tasks' : Tasks}
    {nextSequence : Nat} (ended : Jsonl.Ended newline file)
    (read : Replay.start.lines codec 0 (Jsonl.lines newline file) = .ok ⟨tasks, nextSequence⟩)
    (applied : applyEvent tasks envelope.event envelope.atUnixMs = .ok tasks') :
    Replay.start.lines codec 0
      (Jsonl.lines newline (file ++ LedgerState.record codec envelope)) =
        .ok ⟨tasks', max nextSequence (envelope.sequence + 1)⟩ := by
  have line := Replay.line_read faithful reads (readLine_record faithful reads)
    (0 + (Jsonl.lines newline file).length) nextSequence applied
  rw [Jsonl.lines_append ended, record_line faithful reads, Replay.lines_append read,
    Replay.lines, line]
  rfl

theorem record_ended (file : Bytes) (envelope : LedgerEnvelope) :
    Jsonl.Ended newline (file ++ LedgerState.record codec envelope) := by
  rw [LedgerState.record, ← List.append_assoc]
  exact .concat _

end Reading

namespace LedgerState

/-! ## Live and reopened -/

variable {codec : Codec} {readable : Json.Value → Prop} {state state' : LedgerState}
variable {event : LedgerEvent} {host : Host}

/-- The tasks and the next sequence number are those that the file gives. -/
structure Replayed (codec : Codec) (state : LedgerState) : Prop where
  ended : Jsonl.Ended newline state.file
  read : Replay.start.lines codec 0 (Jsonl.lines newline state.file) =
    .ok ⟨state.tasks, state.nextSequence⟩

theorem Replayed.empty : Replayed codec ⟨[], 0, ∅, ∅⟩ := ⟨.inl rfl, rfl⟩

/-- An append and the replay of its record do the same. -/
theorem Replayed.appended (replayed : Replayed codec state) (faithful : codec.Faithful readable)
    (reads : event.Readable readable) (done : Appended codec state event host state') :
    Replayed codec state' := by
  have reads : (state.envelope event host).event.Readable readable := reads
  have sequence : max state.nextSequence ((state.envelope event host).sequence + 1) =
      state'.nextSequence := by
    rw [done.nextSequence]
    exact Nat.max_eq_right (Nat.le_succ _)
  constructor
  · rw [done.file]
    exact record_ended _ _
  · rw [done.file, read_record faithful reads replayed.ended replayed.read done.tasks, sequence]

/-- Opening the file gives what is in memory. -/
theorem Replayed.openFile (replayed : Replayed codec state) (keyed : Keyed state.tasks)
    (unique : UniqueKeys state.tasks) (indexes : Indexes state.idempotency state.tasks) :
    openFile codec state.file = .ok state := by
  have index : indexOf state.tasks = state.idempotency :=
    (indexes_indexOf keyed unique).ext indexes
  rw [TaskLedger.openFile, replayed.read]
  simp only [index]

end LedgerState

end Nausicaa.TaskLedger
