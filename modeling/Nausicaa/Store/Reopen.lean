import Nausicaa.Store.Jsonl

/-! # Opening a log

Opening loses no byte and can be repeated, whatever the file holds
(`openFile_lossless`). -/

namespace Nausicaa.Store

open Nausicaa.Core
open Jsonl (lines terminated)

/-- The decoder ignores a newline behind a record it can read. -/
def Codec.IgnoresNewline (codec : Codec) : Prop :=
  ∀ bytes event, codec.decode bytes = .ok event → codec.decode (bytes ++ [newline]) = .ok event

theorem Sample.startedCodec_ignoresNewline : Sample.startedCodec.IgnoresNewline := by
  intro bytes event decoded
  have dropped : (bytes ++ [newline]).rdropWhile (· == newline) =
      bytes.rdropWhile (· == newline) := by
    simp
  simp only [startedCodec] at decoded ⊢
  rw [dropped]
  split at decoded
  next => exact decoded
  next => cases decoded

namespace JsonlEventStore

section Reading

variable {codec : Codec} {before rest : List Bytes} {reading reading' : Reading} {last : Bytes}

theorem isAsciiWhitespace_newline : isAsciiWhitespace newline = true := rfl

/-- Only the last line can end the loop early. -/
theorem readLines_append (ended : ∀ line ∈ before, line.getLast? = some newline) :
    readLines codec (before ++ rest) reading =
      match readLines codec before reading with
      | .error error => .error error
      | .ok reading' => readLines codec rest reading' := by
  induction before generalizing reading with
  | nil => rfl
  | cons line before ih =>
    have later : ∀ line ∈ before, line.getLast? = some newline :=
      fun line member => ended line (List.mem_cons_of_mem _ member)
    have ends := ended line List.mem_cons_self
    rw [List.cons_append, readLines, readLines]
    split
    next blank => exact ih later
    next content =>
      cases codec.decode line with
      | ok event => exact ih later
      | error error => simp [ends]

/-- Terminated lines count as read, all of them. -/
theorem readLines_ended (ended : ∀ line ∈ before, line.getLast? = some newline)
    (read : readLines codec before reading = .ok reading') :
    reading'.tornTail = reading.tornTail ∧
      reading'.validBytes = reading.validBytes + before.flatten.length ∧
      (reading.needsNewline = false → reading'.needsNewline = false) := by
  induction before generalizing reading with
  | nil =>
    cases read
    exact ⟨rfl, rfl, id⟩
  | cons line before ih =>
    have ends := ended line List.mem_cons_self
    have accepted : ∀ events, readLines codec before (reading.accept line events) = .ok reading' →
        reading'.tornTail = reading.tornTail ∧
          reading'.validBytes = reading.validBytes + (line :: before).flatten.length ∧
          (reading.needsNewline = false → reading'.needsNewline = false) := by
      intro events read
      obtain ⟨torn, valid, needs⟩ := ih (fun line member =>
        ended line (List.mem_cons_of_mem _ member)) read
      refine ⟨torn, ?_, fun _ => needs ?_⟩
      · rw [valid, List.flatten_cons, List.length_append, ← Nat.add_assoc]
        rfl
      · simp [Reading.accept, ends]
    rw [readLines] at read
    split at read
    next blank => exact accepted [] read
    next content =>
      cases decoded : codec.decode line with
      | ok event =>
        rw [decoded] at read
        exact accepted [event] read
      | error error =>
        rw [decoded] at read
        simp [ends] at read

end Reading

section Opening

variable {codec : Codec} {disk : Disk} {bodies : List Bytes} {last : Bytes}

theorem ended_of_terminated (bodies : List Bytes) :
    ∀ line ∈ bodies.map (· ++ [newline]), line.getLast? = some newline := by
  intro line member
  obtain ⟨body, _, rfl⟩ := List.mem_map.mp member
  exact List.getLast?_concat

/-- A log of terminated lines is left as it is. -/
theorem openFile_terminated (archives : List Bytes) (clean : ∀ body ∈ bodies, newline ∉ body) :
    openFile codec ⟨terminated newline bodies, archives⟩ =
      (match readLines codec (bodies.map (· ++ [newline])) Reading.start with
        | .error error => .error error
        | .ok reading => .ok (ofEvents none reading.events),
        ⟨terminated newline bodies, archives⟩) := by
  have shown : lines newline (terminated newline bodies) = bodies.map (· ++ [newline]) := by
    simpa using Jsonl.lines_terminated clean (List.not_mem_nil : newline ∉ ([] : Bytes))
  rw [openFile, shown]
  cases read : readLines codec (bodies.map (· ++ [newline])) Reading.start with
  | error error => rfl
  | ok reading =>
    obtain ⟨torn, _, needs⟩ := readLines_ended (ended_of_terminated bodies) read
    have torn : reading.tornTail = none := torn
    have needs : reading.needsNewline = false := needs rfl
    simp [torn, needs]

/-- How the opening of a log goes on with the line that has no newline. -/
theorem openFile_unterminated (archives : List Bytes) (clean : ∀ body ∈ bodies, newline ∉ body)
    (cleanLast : newline ∉ last) (nonempty : last ≠ []) :
    openFile codec ⟨terminated newline bodies ++ last, archives⟩ =
      match readLines codec (bodies.map (· ++ [newline])) Reading.start with
      | .error error => (.error error, ⟨terminated newline bodies ++ last, archives⟩)
      | .ok reading =>
        if last.all isAsciiWhitespace then
          (.ok (ofEvents none reading.events),
            ⟨terminated newline bodies ++ last ++ [newline], archives⟩)
        else
          match codec.decode last with
          | .ok event =>
            (.ok (ofEvents none (reading.events ++ [event])),
              ⟨terminated newline bodies ++ last ++ [newline], archives⟩)
          | .error error =>
            if error.isEof then
              (.ok (ofEvents (some archives.length) reading.events),
                ⟨terminated newline bodies, archives ++ [last]⟩)
            else
              (.error (.corrupt (reading.lineNumber + 1) error.message),
                ⟨terminated newline bodies ++ last, archives⟩) := by
  have unended : last.getLast? ≠ some newline := by
    intro ends
    exact cleanLast (List.mem_of_getLast? ends)
  rw [openFile, Jsonl.lines_terminated clean cleanLast, if_neg nonempty,
    readLines_append (ended_of_terminated bodies)]
  cases read : readLines codec (bodies.map (· ++ [newline])) Reading.start with
  | error error => rfl
  | ok reading =>
    obtain ⟨torn, valid, _⟩ := readLines_ended (ended_of_terminated bodies) read
    have torn : reading.tornTail = none := torn
    have valid : reading.validBytes = (terminated newline bodies).length := by
      simpa [Reading.start, terminated] using valid
    by_cases blank : last.all isAsciiWhitespace = true
    · simp [readLines, blank, Reading.accept, torn, unended]
    · cases decoded : codec.decode last with
      | ok event => simp [readLines, blank, decoded, Reading.accept, torn, unended]
      | error error =>
        by_cases eof : error.isEof = true
        · simp [readLines, blank, decoded, unended, eof, valid]
        · simp [readLines, blank, decoded, unended, eof]

/-- A last line that was read without its newline is read the same with it. -/
theorem readLines_completed {reading : Reading} {events : List EventEnvelope}
    (read : readLines codec (bodies.map (· ++ [newline])) Reading.start = .ok reading)
    (accepts : readLines codec [last ++ [newline]] reading =
      .ok (reading.accept (last ++ [newline]) events)) :
    readLines codec ((bodies ++ [last]).map (· ++ [newline])) Reading.start =
      .ok (reading.accept (last ++ [newline]) events) := by
  rw [List.map_append, readLines_append (ended_of_terminated bodies), read]
  exact accepts

/-- What opening a log did to the file, and that it need not be done again. -/
structure Preserved (codec : Codec) (disk : Disk) (store : JsonlEventStore) (disk' : Disk) :
    Prop where
  kept : store.recoveredTail = none → disk'.archives = disk.archives ∧ disk'.file =
    if disk.file ≠ [] ∧ disk.file.getLast? ≠ some newline then disk.file ++ [newline] else disk.file
  archived : ∀ archive, store.recoveredTail = some archive →
    ∃ tail, tail ≠ [] ∧ newline ∉ tail ∧ disk'.archives = disk.archives ++ [tail] ∧
      disk'.archives[archive]? = some tail ∧ disk.file = disk'.file ++ tail ∧
      (disk'.file = [] ∨ disk'.file.getLast? = some newline)
  again : ∃ store', openFile codec disk' = (.ok store', disk') ∧ store'.events = store.events ∧
    store'.recoveredTail = none

/-- Every line was terminated. -/
theorem Preserved.terminated {reading : Reading} (archives : List Bytes)
    (clean : ∀ body ∈ bodies, newline ∉ body)
    (read : readLines codec (bodies.map (· ++ [newline])) Reading.start = .ok reading) :
    Preserved codec ⟨terminated newline bodies, archives⟩ (ofEvents none reading.events)
      ⟨terminated newline bodies, archives⟩ where
  kept _ := by
    refine ⟨rfl, ?_⟩
    by_cases none : bodies = []
    · simp [none]
    · simp [Jsonl.getLast?_terminated none]
  archived _ recovered := by cases recovered
  again := ⟨_, by rw [openFile_terminated archives clean, read], rfl, rfl⟩

/-- The last line only lacked its newline. -/
theorem Preserved.completed {reading : Reading} {events : List EventEnvelope}
    (archives : List Bytes) (clean : ∀ body ∈ bodies, newline ∉ body) (cleanLast : newline ∉ last)
    (nonempty : last ≠ [])
    (read : readLines codec (bodies.map (· ++ [newline])) Reading.start = .ok reading)
    (accepts : readLines codec [last ++ [newline]] reading =
      .ok (reading.accept (last ++ [newline]) events)) :
    Preserved codec ⟨Jsonl.terminated newline bodies ++ last, archives⟩
      (ofEvents none (reading.events ++ events))
      ⟨Jsonl.terminated newline bodies ++ last ++ [newline], archives⟩ where
  kept _ := by
    have unended : (Jsonl.terminated newline bodies ++ last).getLast? ≠ some newline := by
      rw [List.getLast?_append_of_ne_nil _ nonempty]
      intro ends
      exact cleanLast (List.mem_of_getLast? ends)
    have content : Jsonl.terminated newline bodies ++ last ≠ [] := by simp [nonempty]
    exact ⟨rfl, by rw [if_pos ⟨content, unended⟩]⟩
  archived _ recovered := by cases recovered
  again := by
    have clean' : ∀ body ∈ bodies ++ [last], newline ∉ body := by
      intro body member
      cases List.mem_append.mp member with
      | inl earlier => exact clean body earlier
      | inr here => rw [List.mem_singleton.mp here]; exact cleanLast
    rw [← Jsonl.terminated_concat, openFile_terminated archives clean',
      readLines_completed read accepts]
    exact ⟨_, rfl, rfl, rfl⟩

/-- The last line was torn. -/
theorem Preserved.torn {reading : Reading} (archives : List Bytes)
    (clean : ∀ body ∈ bodies, newline ∉ body) (cleanLast : newline ∉ last) (nonempty : last ≠ [])
    (read : readLines codec (bodies.map (· ++ [newline])) Reading.start = .ok reading) :
    Preserved codec ⟨Jsonl.terminated newline bodies ++ last, archives⟩
      (ofEvents (some archives.length) reading.events)
      ⟨Jsonl.terminated newline bodies, archives ++ [last]⟩ where
  kept recovered := by cases recovered
  archived archive recovered := by
    cases recovered
    refine ⟨last, nonempty, cleanLast, rfl, by simp, rfl, ?_⟩
    by_cases none : bodies = []
    · exact .inl (by simp [none])
    · exact .inr (Jsonl.getLast?_terminated none)
  again := ⟨ofEvents none reading.events, by rw [openFile_terminated _ clean, read], rfl, rfl⟩

/-- A corrupt log is left alone; otherwise what was opened is `Preserved`. -/
def Lossless (codec : Codec) (disk : Disk) : Except StoreError JsonlEventStore × Disk → Prop
  | (.error _, disk') => disk' = disk
  | (.ok store, disk') => Preserved codec disk store disk'

/-- Opening loses no byte of any file: a corrupt log is left alone, a torn tail is moved to
an archive, and otherwise at most a newline is added.  A second opening changes nothing. -/
theorem openFile_lossless (trailing : codec.IgnoresNewline) (disk : Disk) :
    Lossless codec disk (openFile codec disk) := by
  obtain ⟨file, archives⟩ := disk
  obtain ⟨bodies, last, rfl, clean, cleanLast⟩ := Jsonl.exists_terminated newline file
  by_cases empty : last = []
  · subst empty
    rw [List.append_nil, openFile_terminated archives clean]
    cases read : readLines codec (bodies.map (· ++ [newline])) Reading.start with
    | error error => rfl
    | ok reading => exact Preserved.terminated archives clean read
  · rw [openFile_unterminated archives clean cleanLast empty]
    cases read : readLines codec (bodies.map (· ++ [newline])) Reading.start with
    | error error => rfl
    | ok reading =>
      by_cases blank : last.all isAsciiWhitespace = true
      · have accepts : readLines codec [last ++ [newline]] reading =
            .ok (reading.accept (last ++ [newline]) []) := by
          simp [readLines, List.all_append, blank, isAsciiWhitespace_newline]
        have completed := Preserved.completed archives clean cleanLast empty read accepts
        rw [List.append_nil] at completed
        simp only [if_pos blank]
        exact completed
      · cases decoded : codec.decode last with
        | ok event =>
          have accepts : readLines codec [last ++ [newline]] reading =
              .ok (reading.accept (last ++ [newline]) [event]) := by
            simp [readLines, List.all_append, blank, trailing last event decoded]
          simp only [if_neg blank]
          exact Preserved.completed archives clean cleanLast empty read accepts
        | error error =>
          by_cases eof : error.isEof = true
          · simp only [if_neg blank, if_pos eof]
            exact Preserved.torn archives clean cleanLast empty read
          · simp only [if_neg blank, if_neg eof]
            rfl

/-- A log whose second record is torn. -/
theorem openFile_lossless_torn :
    Lossless Sample.startedCodec
        ⟨Sample.startedText 0 ++ newline :: (Sample.startedText 1).take 20, []⟩
        (openFile Sample.startedCodec
          ⟨Sample.startedText 0 ++ newline :: (Sample.startedText 1).take 20, []⟩) ∧
      (openFile Sample.startedCodec
          ⟨Sample.startedText 0 ++ newline :: (Sample.startedText 1).take 20, []⟩).2 =
        ⟨Sample.startedText 0 ++ [newline], [(Sample.startedText 1).take 20]⟩ :=
  ⟨openFile_lossless Sample.startedCodec_ignoresNewline _, by decide⟩

end Opening

end JsonlEventStore

end Nausicaa.Store
