import Nausicaa.Task.Soundness

/-! # The journal is replayed

A journal that was written is read back (`Stored`).  A failing write leaves a part of its
record, which is refused, or all of it, which is read; nothing is written after it
(`Calls.atomic`). -/

namespace Nausicaa.Task

/-! ## What the calls tell -/

/-- The events of the operations that returned `Ok`, in order. -/
def acknowledged : List Call → List TaskEvent
  | [] => []
  | call :: earlier =>
    match call.reply with
    | .ok () => acknowledged earlier ++ [call.operation.event]
    | .error _ => acknowledged earlier

/-- The event whose write failed, and how much of it was written. -/
def failedWrite : List Call → Option (TaskEvent × Nat)
  | [] => none
  | call :: earlier =>
    match failedWrite earlier, call.reply, call.fault with
    | some failed, _, _ => some failed
    | none, .error (.io _), some fault => some (call.operation.event, fault.written)
    | none, _, _ => none

/-- The state after the events, if every one of them is accepted. -/
def applyAll (debug : String → String) (state : TaskState) : List TaskEvent → Option TaskState
  | [] => some state
  | event :: events =>
    match state.apply debug event with
    | (.ok (), state) => applyAll debug state events
    | (.error _, _) => none

theorem applyAll_concat {debug : String → String} {state next last : TaskState}
    {events : List TaskEvent} {event : TaskEvent}
    (before : applyAll debug state events = some next)
    (applied : next.apply debug event = (.ok (), last)) :
    applyAll debug state (events ++ [event]) = some last := by
  induction events generalizing state with
  | nil =>
    cases before
    simp only [List.nil_append, applyAll, applied]
  | cons first events ih =>
    rw [applyAll] at before
    rw [List.cons_append, applyAll]
    split at before
    next state' accepted => exact ih before
    next => cases before

/-! ## Reading -/

section Reading

variable {debug : String → String} {codec : Codec} {readable : TaskEvent → Prop}
variable {journal : TaskJournal} {event : TaskEvent} {next : TaskState}

open TaskJournal (line openFile Opening)

/-- The file gives the state and the sequence number. -/
structure Stored (debug : String → String) (codec : Codec) (journal : TaskJournal) : Prop where
  ended : journal.file.getLast? = some newline
  read : Opening.start.lines debug codec (Jsonl.lines newline journal.file) =
    .ok ⟨some journal.state, journal.sequence⟩

theorem Stored.opens (stored : Stored debug codec journal) :
    openFile debug codec journal.file =
      .ok ⟨journal.file, journal.state, journal.sequence, false⟩ := by
  rw [TaskJournal.openFile, if_neg (not_not.mpr stored.ended), stored.read]

theorem stored_of_openFile {bytes : Bytes} (opened : openFile debug codec bytes = .ok journal) :
    Stored debug codec journal ∧ journal.writeFailed = false := by
  rw [TaskJournal.openFile] at opened
  split at opened
  next => cases opened
  next ended =>
    split at opened
    next error refused => cases opened
    next => cases opened
    next state sequence read =>
      cases opened
      exact ⟨⟨not_not.mp ended, read⟩, rfl⟩

theorem Opening.lines_append {opening opening' : Opening} {before after : List Bytes}
    (read : opening.lines debug codec before = .ok opening') :
    opening.lines debug codec (before ++ after) = opening'.lines debug codec after := by
  induction before generalizing opening with
  | nil =>
    cases read
    rfl
  | cons first before ih =>
    rw [Opening.lines] at read
    rw [List.cons_append, Opening.lines]
    split at read
    next error refused => cases read
    next next one => exact ih read

theorem line_lines (faithful : codec.Faithful readable) {record : Record}
    (reads : readable record.payload) :
    Jsonl.lines newline (line codec record) = [line codec record] :=
  Jsonl.lines_body (faithful.oneLine record reads) []

/-- One more record is one more event. -/
theorem Stored.append (stored : Stored debug codec journal) (faithful : codec.Faithful readable)
    (reads : readable event) (applied : journal.state.apply debug event = (.ok (), next))
    (writeFailed : Bool) :
    Stored debug codec ⟨journal.file ++ line codec (journal.record event), next,
      journal.sequence + 1, writeFailed⟩ where
  ended := by
    rw [line, ← List.append_assoc]
    exact List.getLast?_concat
  read := by
    have one : Opening.line ⟨some journal.state, journal.sequence⟩ debug codec
        (line codec (journal.record event)) = .ok ⟨some next, journal.sequence + 1⟩ := by
      rw [Opening.line, line, faithful.decodes (journal.record event) reads]
      simp [TaskJournal.record, applied]
    rw [Jsonl.lines_append (.inr stored.ended), line_lines faithful reads,
      Opening.lines_append stored.read, Opening.lines, one]
    rfl

/-- A part of a record makes a file that is not terminated. -/
theorem openFile_part (faithful : codec.Faithful readable) {record : Record}
    (reads : readable record.payload) (file : Bytes) {written : Nat} (some : 0 < written)
    (missing : written < (line codec record).length) :
    ∃ error, openFile debug codec (file ++ (line codec record).take written) = .error error := by
  have open' := Jsonl.not_ended_part (faithful.oneLine record reads) file some missing
  rw [Jsonl.Ended, not_or] at open'
  exact ⟨_, if_pos open'.2⟩

/-- The file of a new journal. -/
theorem created_stored (faithful : codec.Faithful readable) {spec : TaskSpec} {state : TaskState}
    (reads : readable (.created spec)) (made : initialState spec = .ok state)
    (writeFailed : Bool) :
    Stored debug codec ⟨line codec ⟨1, 0, .created spec⟩, state, 1, writeFailed⟩ where
  ended := List.getLast?_concat
  read := by
    have one : Opening.start.line debug codec (line codec ⟨1, 0, .created spec⟩) =
        .ok ⟨some state, 1⟩ := by
      rw [Opening.line, line, faithful.decodes ⟨1, 0, .created spec⟩ reads]
      simp [Opening.start, made]
    rw [line_lines faithful reads, Opening.lines, one]
    rfl

theorem begun_stored (faithful : codec.Faithful readable) (begun : Begun debug codec journal)
    (reads : readable (.created journal.state.spec)) :
    Stored debug codec journal ∧ journal.writeFailed = false := by
  cases begun with
  | create created =>
    obtain ⟨made, same⟩ := create_ok created
    rw [(TaskState.initialState_ok made).sameSpec] at reads
    rw [same]
    exact ⟨created_stored faithful reads made false, rfl⟩
  | openFile opened => exact stored_of_openFile opened

/-! ## A write that fails -/

/-- What opening gives behind a write that failed. -/
structure Left (debug : String → String) (codec : Codec) (journal : TaskJournal)
    (event : TaskEvent) (written : Nat) : Prop where
  part : (0 < written ∧ written < (line codec (journal.record event)).length) ↔
    ∃ error, openFile debug codec journal.file = .error error
  nothing : written = 0 → openFile debug codec journal.file =
    .ok ⟨journal.file, journal.state, journal.sequence, false⟩
  whole : (line codec (journal.record event)).length ≤ written →
    ∃ next, journal.state.apply debug event = (.ok (), next) ∧
      openFile debug codec journal.file = .ok ⟨journal.file, next, journal.sequence + 1, false⟩

theorem Stored.left (stored : Stored debug codec journal) (faithful : codec.Faithful readable)
    (reads : readable event) (applied : journal.state.apply debug event = (.ok (), next))
    (written : Nat) :
    Left debug codec { journal with
      file := journal.file ++ (line codec (journal.record event)).take written
      writeFailed := true } event written := by
  have nothing : written = 0 →
      openFile debug codec (journal.file ++ (line codec (journal.record event)).take written) =
        .ok ⟨journal.file ++ (line codec (journal.record event)).take written, journal.state,
          journal.sequence, false⟩ := by
    intro zero
    rw [zero, List.take_zero, List.append_nil]
    exact stored.opens
  have whole : (line codec (journal.record event)).length ≤ written →
      openFile debug codec (journal.file ++ (line codec (journal.record event)).take written) =
        .ok ⟨journal.file ++ (line codec (journal.record event)).take written, next,
          journal.sequence + 1, false⟩ := by
    intro whole
    rw [List.take_of_length_le whole]
    exact (stored.append faithful reads applied true).opens
  refine ⟨?_, nothing, fun all => ⟨next, applied, whole all⟩⟩
  constructor
  · intro part
    exact openFile_part faithful reads journal.file part.1 part.2
  · intro refused
    obtain ⟨error, refused⟩ := refused
    constructor
    · apply Nat.pos_of_ne_zero
      intro zero
      cases (nothing zero).symm.trans refused
    · apply Nat.lt_of_not_le
      intro all
      cases (whole all).symm.trans refused

end Reading

/-! ## Runs -/

section Runs

variable {debug : String → String} {codec : Codec} {readable : TaskEvent → Prop}
variable {start journal journal' : TaskJournal} {calls : List Call}

/-- What holds of an instance and its file. -/
structure Kept (debug : String → String) (codec : Codec) (start : TaskJournal)
    (calls : List Call) (journal : TaskJournal) : Prop where
  replayed : applyAll debug start.state (acknowledged calls) = some journal.state
  counted : journal.sequence = start.sequence + (acknowledged calls).length
  whole : failedWrite calls = none →
    Stored debug codec journal ∧ journal.writeFailed = false
  part : ∀ event written, failedWrite calls = some (event, written) →
    Left debug codec journal event written ∧ journal.writeFailed = true

theorem Calls.kept (made : Calls debug codec start calls journal)
    (faithful : codec.Faithful readable) (stored : Stored debug codec start)
    (fresh : start.writeFailed = false)
    (reads : ∀ call ∈ calls, readable call.operation.event) :
    Kept debug codec start calls journal := by
  induction made with
  | start =>
    refine ⟨rfl, rfl, fun _ => ⟨stored, fresh⟩, ?_⟩
    intro event written none
    cases none
  | @call calls journal journal' operation fault reply made done ih =>
    have kept := ih fun call member => reads call (List.mem_cons_of_mem _ member)
    have own : readable operation.event := reads _ List.mem_cons_self
    cases reply with
    | ok _ =>
      obtain ⟨next, applied, open', rfl⟩ := TaskJournal.transition_ok done
      have none : failedWrite calls = none := by
        cases failed : failedWrite calls with
        | none => rfl
        | some write => cases open'.symm.trans (kept.part _ _ failed).2
      refine ⟨applyAll_concat kept.replayed applied, ?_, ?_, ?_⟩
      · simp [acknowledged, kept.counted, Nat.add_assoc]
      · intro _
        exact ⟨(kept.whole none).1.append faithful own applied false, rfl⟩
      · intro event written failed
        simp [failedWrite, none] at failed
    | error error =>
      obtain ⟨rfl, message, rfl⟩ | ⟨fault, next, rfl, rfl, applied, open', rfl⟩ :=
        TaskJournal.transition_error done
      · have same : failedWrite (⟨journal', operation, fault, .error (.invalid message),
            journal'⟩ :: calls) = failedWrite calls := by
          rw [failedWrite]
          cases failedWrite calls <;> rfl
        exact ⟨kept.replayed, kept.counted, same ▸ kept.whole, same ▸ kept.part⟩
      · have none : failedWrite calls = none := by
          cases failed : failedWrite calls with
          | none => rfl
          | some write => cases open'.symm.trans (kept.part _ _ failed).2
        refine ⟨kept.replayed, kept.counted, ?_, ?_⟩
        · intro failed
          simp [failedWrite, none] at failed
        · intro event written failed
          simp only [failedWrite, none, Option.some.injEq, Prod.mk.injEq] at failed
          obtain ⟨rfl, rfl⟩ := failed
          exact ⟨(kept.whole none).1.left faithful own applied _, rfl⟩

/-- The calls behind a call are calls on the instance that it leaves. -/
theorem Calls.behind {later earlier : List Call} {call : Call}
    (made : Calls debug codec start (later ++ call :: earlier) journal) :
    Calls debug codec call.after later journal := by
  induction later generalizing journal with
  | nil =>
    cases made
    exact .start
  | cons last later ih =>
    cases made with
    | call made done => exact .call (ih made) done

theorem Calls.refused (made : Calls debug codec start calls journal)
    (failed : start.writeFailed = true) :
    journal = start ∧ ∀ call ∈ calls, (∃ error, call.reply = .error error) ∧
      call.after = start := by
  induction made with
  | start => simp
  | @call calls journal journal' operation fault reply made done ih =>
    obtain ⟨rfl, before⟩ := ih
    obtain ⟨message, refused⟩ :
        ∃ message, journal.transition debug codec operation.event fault =
          (.error (.invalid message), journal) :=
      TaskJournal.transition_failed failed operation.event fault
    cases refused.symm.trans done
    refine ⟨rfl, ?_⟩
    intro call member
    cases List.mem_cons.mp member with
    | inl last => rw [last]; exact ⟨⟨_, rfl⟩, rfl⟩
    | inr earlier => exact before call earlier

theorem Calls.transition (made : Calls debug codec start calls journal) {call : Call}
    (member : call ∈ calls) :
    call.before.transition debug codec call.operation.event call.fault =
      (call.reply, call.after) := by
  induction made with
  | start => cases member
  | call made done ih =>
    cases member with
    | head => exact done
    | tail _ earlier => exact ih earlier

/-- What a rejected operation, and one whose write failed, leave. -/
theorem transition_kept {event : TaskEvent} {fault : Option Fault} {error : TaskError}
    (refused : journal.transition debug codec event fault = (.error error, journal')) :
    journal'.state = journal.state ∧ journal'.sequence = journal.sequence ∧
      (journal' = journal ∨ ∃ message, error = .io message ∧ journal'.writeFailed = true) := by
  obtain ⟨rfl, _⟩ | ⟨fault, next, _, rfl, _, _, rfl⟩ := TaskJournal.transition_error refused
  · exact ⟨rfl, rfl, .inl rfl⟩
  · exact ⟨rfl, rfl, .inr ⟨_, rfl, rfl⟩⟩

theorem transition_io {event : TaskEvent} {fault : Option Fault} {message : String}
    (failed : journal.transition debug codec event fault = (.error (.io message), journal')) :
    journal'.writeFailed = true := by
  obtain ⟨_, other, same⟩ | ⟨_, _, _, _, _, _, rfl⟩ := TaskJournal.transition_error failed
  · cases same
  · rfl

/-- A rejected specification makes no file, and an incomplete creation one that cannot be
opened. -/
theorem create_failed (faithful : codec.Faithful readable) {spec : TaskSpec}
    (reads : readable (.created spec)) (fault : Option Fault) {error : TaskError}
    {file : Option Bytes} (failed : TaskJournal.create codec spec fault = (.error error, file)) :
    (file = none ∧ initialState spec = .error error) ∨
      ∃ fault' bytes state, fault = some fault' ∧ file = some bytes ∧
        initialState spec = .ok state ∧
        (fault'.written < (TaskJournal.line codec ⟨1, 0, .created spec⟩).length ↔
          ∃ error, TaskJournal.openFile debug codec bytes = .error error) ∧
        ((TaskJournal.line codec ⟨1, 0, .created spec⟩).length ≤ fault'.written →
          TaskJournal.openFile debug codec bytes = .ok ⟨bytes, state, 1, false⟩) := by
  rw [TaskJournal.create] at failed
  split at failed
  next error' refused =>
    cases failed
    exact .inl ⟨rfl, refused⟩
  next state made =>
    cases fault with
    | none => cases failed
    | some fault =>
      cases failed
      refine .inr ⟨fault, _, state, rfl, rfl, made, ?_⟩
      have whole : (TaskJournal.line codec ⟨1, 0, .created spec⟩).length ≤ fault.written →
          TaskJournal.openFile debug codec
            ([] ++ (TaskJournal.line codec ⟨1, 0, .created spec⟩).take fault.written) =
          .ok ⟨[] ++ (TaskJournal.line codec ⟨1, 0, .created spec⟩).take fault.written,
            state, 1, false⟩ := by
        intro all
        rw [List.nil_append, List.take_of_length_le all]
        exact (created_stored faithful reads made true).opens
      refine ⟨?_, whole⟩
      constructor
      · intro missing
        by_cases none : fault.written = 0
        · rw [none]
          exact ⟨_, if_pos (by simp)⟩
        · exact openFile_part faithful reads [] (Nat.pos_of_ne_zero none) missing
      · intro refused
        obtain ⟨error, refused⟩ := refused
        apply Nat.lt_of_not_le
        intro all
        cases (whole all).symm.trans refused

/-- The journal is atomic, and it is replayed. -/
theorem Calls.atomic (faithful : codec.Faithful readable) (begun : Begun debug codec start)
    (created : readable (.created start.state.spec))
    (reads : ∀ call ∈ calls, readable call.operation.event)
    (made : Calls debug codec start calls journal) :
    (∀ call ∈ calls, ∀ error, call.reply = .error error →
      call.after.state = call.before.state ∧ call.after.sequence = call.before.sequence ∧
        (call.after = call.before ∨ ∃ message, error = .io message)) ∧
    (∀ later call earlier message, calls = later ++ call :: earlier →
      call.reply = .error (.io message) → ∀ refused ∈ later,
        (∃ error, refused.reply = .error error) ∧ refused.after = call.after) ∧
    applyAll debug start.state (acknowledged calls) = some journal.state ∧
    journal.sequence = start.sequence + (acknowledged calls).length ∧
    (failedWrite calls = none → TaskJournal.openFile debug codec journal.file = .ok journal) ∧
    (∀ event written, failedWrite calls = some (event, written) →
      Left debug codec journal event written) ∧
    (∀ spec fault error file, readable (.created spec) →
      TaskJournal.create codec spec fault = (.error error, file) →
      (file = none ∧ initialState spec = .error error) ∨
        ∃ fault' bytes state, fault = some fault' ∧ file = some bytes ∧
          initialState spec = .ok state ∧
          (fault'.written < (TaskJournal.line codec ⟨1, 0, .created spec⟩).length ↔
            ∃ error, TaskJournal.openFile debug codec bytes = .error error) ∧
          ((TaskJournal.line codec ⟨1, 0, .created spec⟩).length ≤ fault'.written →
            TaskJournal.openFile debug codec bytes = .ok ⟨bytes, state, 1, false⟩)) := by
  obtain ⟨stored, fresh⟩ := begun_stored faithful begun created
  have kept := made.kept faithful stored fresh reads
  refine ⟨?_, ?_, kept.replayed, kept.counted, ?_, ?_, ?_⟩
  · intro call member error failed
    have done := made.transition member
    rw [failed] at done
    obtain ⟨state, sequence, same | io⟩ := transition_kept done
    · exact ⟨state, sequence, .inl same⟩
    · obtain ⟨message, io, _⟩ := io
      exact ⟨state, sequence, .inr ⟨message, io⟩⟩
  · intro later call earlier message split failed refused member
    subst split
    have done := made.transition (List.mem_append_right later List.mem_cons_self)
    rw [failed] at done
    exact (made.behind.refused (transition_io done)).2 refused member
  · intro none
    obtain ⟨stored, closed⟩ := kept.whole none
    rw [stored.opens, ← closed]
  · intro event written failed
    exact (kept.part event written failed).1
  · intro spec fault error file reads failed
    exact create_failed faithful reads fault failed

end Runs

namespace Sample

/-- The first byte of the record only is written. -/
def broken : Call := call started.after (.verify [⟨"lib.rs", "a - b"⟩] [])
  (some ⟨1, "No space left on device"⟩)

def refused : Call := call broken.after (.block "stuck") none

theorem interrupted : Calls debug serde journal [refused, broken, started] refused.after :=
  .call (.call (.call .start rfl) rfl) rfl

end Sample

theorem Calls.atomic_sample : Sample.refused.after = Sample.broken.after ∧
    Sample.refused.after.state.status = .running ∧
    ∃ error, TaskJournal.openFile Sample.debug serde Sample.refused.after.file = .error error := by
  have reads : ∀ call ∈ [Sample.refused, Sample.broken, Sample.started],
      call.operation.event.Readable := by
    intro call member
    simp only [List.mem_cons, List.not_mem_nil, or_false] at member
    obtain rfl | rfl | rfl := member
    · trivial
    · intro receipt none
      cases none
    · trivial
  obtain ⟨_, behind, _, _, _, left, _⟩ := Calls.atomic serde_faithful
    (.create Sample.created) (by trivial) reads Sample.interrupted
  have later := behind [Sample.refused] Sample.broken [Sample.started] _ rfl rfl
    Sample.refused (by simp)
  refine ⟨later.2, rfl, (left _ 1 rfl).part.mp ⟨by decide, ?_⟩⟩
  rw [TaskJournal.line, List.length_append, List.length_singleton]
  apply Nat.lt_add_of_pos_left
  apply List.length_pos_of_ne_nil
  intro empty
  -- An empty line is no record.
  have decoded := serde_faithful.decodes (Sample.refused.after.record (.attemptChecked
    [⟨"lib.rs", "a - b"⟩] [])) (by intro receipt none; cases none)
  have empty : serde.encode (Sample.refused.after.record (.attemptChecked
    [⟨"lib.rs", "a - b"⟩] [])) = [] := empty
  have none : serde.decode ([] ++ [newline]) = .error "not a record" := by decide
  rw [empty, none] at decoded
  cases decoded

end Nausicaa.Task
