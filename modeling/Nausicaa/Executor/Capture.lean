import Mathlib.Data.List.Basic

/-! # Captured output

`CapturedPipe` of `executor-process/src/lib.rs`, over whatever its reader returns.  What is retained
of a stream, and whether it is reported as truncated, does not depend on how the stream arrives
(`drain_captures`). -/

namespace Nausicaa.Executor

/-- What a read puts into the buffer. -/
structure Chunk where
  bytes : List UInt8
  filled : bytes ≠ []
  fits : bytes.length ≤ 8192

inductive ReadResult where
  | data (chunk : Chunk)
  | endOfFile
  | wouldBlock
  | interrupted
  | failed (error : String)

/-- What each read returns. -/
abbrev Reader := Nat → ReadResult

structure CapturedPipe where
  /-- How often the reader was read. -/
  reads : Nat
  retained : List UInt8
  maximum : Nat
  truncated : Bool
  eof : Bool

/-- The pipe after a call, and what the call returned. -/
structure Drained where
  pipe : CapturedPipe
  result : Except String Unit

namespace CapturedPipe

def new (maximum : Nat) : CapturedPipe := ⟨0, [], maximum, false, false⟩

def retain (pipe : CapturedPipe) (bytes : List UInt8) : CapturedPipe :=
  let remaining := pipe.maximum - pipe.retained.length
  { pipe with
    retained := pipe.retained ++ bytes.take (min bytes.length remaining)
    truncated := pipe.truncated || decide (remaining < bytes.length) }

/-- `for _ in 0..32`, of which some rounds are left. -/
def drainLoop (reader : Reader) : Nat → CapturedPipe → Drained
  | 0, pipe => ⟨pipe, .ok ()⟩
  | rounds + 1, pipe =>
    let after := { pipe with reads := pipe.reads + 1 }
    match reader pipe.reads with
    | .endOfFile => ⟨{ after with eof := true }, .ok ()⟩
    | .data chunk => drainLoop reader rounds (after.retain chunk.bytes)
    | .wouldBlock => ⟨after, .ok ()⟩
    | .interrupted => drainLoop reader rounds after
    | .failed error => ⟨after, .error error⟩

def drain (reader : Reader) (pipe : CapturedPipe) : Drained :=
  if pipe.eof then ⟨pipe, .ok ()⟩ else drainLoop reader 32 pipe

/-- One call after the other. -/
def drains (reader : Reader) : Nat → CapturedPipe → CapturedPipe
  | 0, pipe => pipe
  | calls + 1, pipe => drains reader calls (drain reader pipe).pipe

/-- The text and the flag of `ProcessOutput`. -/
def report (lossy : List UInt8 → String) (pipe : CapturedPipe) : String × Bool :=
  (lossy pipe.retained, pipe.truncated || !pipe.eof)

end CapturedPipe

/-! ## The stream behind the reads -/

def ReadResult.bytes : ReadResult → List UInt8
  | .data chunk => chunk.bytes
  | _ => []

/-- The bytes of the first reads. -/
def consumed (reader : Reader) (reads : Nat) : List UInt8 :=
  (List.range reads).flatMap fun index => (reader index).bytes

/-- The reads return this stream, and then its end. -/
def Carries (reader : Reader) (stream : List UInt8) : Prop :=
  ∃ reads, reader reads = .endOfFile ∧ (∀ earlier < reads, reader earlier ≠ .endOfFile) ∧
    consumed reader reads = stream

/-- The pipe holds what it should of what was read. -/
structure Captures (reader : Reader) (pipe : CapturedPipe) : Prop where
  retained : pipe.retained =
    (consumed reader pipe.reads).take (min pipe.maximum (consumed reader pipe.reads).length)
  truncated : pipe.truncated = true ↔ pipe.maximum < (consumed reader pipe.reads).length
  eof : pipe.eof = true ↔ ∃ index < pipe.reads, reader index = .endOfFile

section Reader

variable {reader : Reader} {pipe : CapturedPipe}

@[simp] theorem consumed_zero : consumed reader 0 = [] := rfl

theorem consumed_succ (reads : Nat) :
    consumed reader (reads + 1) = consumed reader reads ++ (reader reads).bytes := by
  rw [consumed, List.range_succ, List.flatMap_append, List.flatMap_singleton]
  rfl

/-- What holds in front of a read. -/
structure Reading (reader : Reader) (pipe : CapturedPipe) : Prop where
  retained : pipe.retained = (consumed reader pipe.reads).take pipe.maximum
  truncated : pipe.truncated = true ↔ pipe.maximum < (consumed reader pipe.reads).length
  open' : ∀ index < pipe.reads, reader index ≠ .endOfFile
  eof : pipe.eof = false

/-- What holds behind a call: the pipe is still open, or its last read was the end. -/
inductive Kept (reader : Reader) (pipe : CapturedPipe) : Prop
  | reading : Reading reader pipe → Kept reader pipe
  | ended (reads : Nat) : pipe.reads = reads + 1 → reader reads = .endOfFile →
    Reading reader { pipe with reads, eof := false } → pipe.eof = true → Kept reader pipe

theorem reading_new (maximum : Nat) : Reading reader (.new maximum) :=
  ⟨by simp [CapturedPipe.new], by simp [CapturedPipe.new], by simp [CapturedPipe.new], rfl⟩

/-- A read without bytes. -/
theorem Reading.skip (reading : Reading reader pipe) (bytes : (reader pipe.reads).bytes = [])
    (more : reader pipe.reads ≠ .endOfFile) :
    Reading reader { pipe with reads := pipe.reads + 1 } := by
  have same : consumed reader (pipe.reads + 1) = consumed reader pipe.reads := by
    rw [consumed_succ, bytes, List.append_nil]
  refine ⟨?_, ?_, ?_, reading.eof⟩
  · dsimp only
    rw [same, reading.retained]
  · dsimp only
    rw [same, reading.truncated]
  · intro index before
    obtain before | rfl := Nat.lt_succ_iff_lt_or_eq.mp before
    · exact reading.open' index before
    · exact more

theorem Reading.retain (reading : Reading reader pipe) {chunk : Chunk}
    (found : reader pipe.reads = .data chunk) :
    Reading reader ({ pipe with reads := pipe.reads + 1 }.retain chunk.bytes) := by
  have whole : consumed reader (pipe.reads + 1) = consumed reader pipe.reads ++ chunk.bytes := by
    rw [consumed_succ, found]
    rfl
  -- The room that is left is counted from all that was read.
  have room : pipe.maximum - pipe.retained.length =
      pipe.maximum - (consumed reader pipe.reads).length := by
    rw [reading.retained, List.length_take]
    omega
  refine ⟨?_, ?_, ?_, reading.eof⟩
  · dsimp only [CapturedPipe.retain]
    rw [whole, List.take_append, room, reading.retained, Nat.min_comm, List.take_eq_take_min]
    simp [Nat.min_comm]
  · dsimp only [CapturedPipe.retain]
    rw [whole, List.length_append, room, Bool.or_eq_true, reading.truncated, decide_eq_true_eq]
    omega
  · intro index before
    obtain before | rfl := Nat.lt_succ_iff_lt_or_eq.mp before
    · exact reading.open' index before
    · rw [found]
      simp

theorem drainLoop_kept (rounds : Nat) (reading : Reading reader pipe) :
    Kept reader (CapturedPipe.drainLoop reader rounds pipe).pipe ∧
      (CapturedPipe.drainLoop reader rounds pipe).pipe.reads ≤ pipe.reads + rounds ∧
      (CapturedPipe.drainLoop reader rounds pipe).pipe.maximum = pipe.maximum := by
  induction rounds generalizing pipe with
  | zero => exact ⟨.reading reading, Nat.le_refl _, rfl⟩
  | succ rounds ih =>
    rw [CapturedPipe.drainLoop]
    cases found : reader pipe.reads with
    | endOfFile =>
      refine ⟨.ended pipe.reads rfl found ?_ rfl, by simp, rfl⟩
      exact ⟨reading.retained, reading.truncated, reading.open', rfl⟩
    | data chunk =>
      obtain ⟨kept, reads, maximum⟩ := ih (reading.retain found)
      exact ⟨kept, Nat.le_trans reads (by simp [CapturedPipe.retain]; omega), maximum⟩
    | wouldBlock =>
      exact ⟨.reading (reading.skip (by rw [found]; rfl) (by simp [found])), by simp, rfl⟩
    | interrupted =>
      obtain ⟨kept, reads, maximum⟩ := ih (reading.skip (by rw [found]; rfl) (by simp [found]))
      exact ⟨kept, Nat.le_trans reads (by simp; omega), maximum⟩
    | failed error =>
      exact ⟨.reading (reading.skip (by rw [found]; rfl) (by simp [found])), by simp, rfl⟩

theorem drain_kept (kept : Kept reader pipe) :
    Kept reader (CapturedPipe.drain reader pipe).pipe ∧
      (CapturedPipe.drain reader pipe).pipe.reads ≤ pipe.reads + 32 ∧
      (CapturedPipe.drain reader pipe).pipe.maximum = pipe.maximum := by
  rw [CapturedPipe.drain]
  cases kept with
  | reading reading =>
    rw [reading.eof, if_neg Bool.false_ne_true]
    exact drainLoop_kept 32 reading
  | ended reads last end' before eof =>
    rw [eof, if_pos rfl]
    exact ⟨.ended reads last end' before eof, Nat.le_add_right _ _, rfl⟩

theorem drains_kept (calls : Nat) (kept : Kept reader pipe) :
    Kept reader (CapturedPipe.drains reader calls pipe) ∧
      (CapturedPipe.drains reader calls pipe).maximum = pipe.maximum := by
  induction calls generalizing pipe with
  | zero => exact ⟨kept, rfl⟩
  | succ calls ih =>
    obtain ⟨after, _, maximum⟩ := drain_kept kept
    obtain ⟨kept', maximum'⟩ := ih after
    exact ⟨kept', maximum'.trans maximum⟩

theorem Kept.captures (kept : Kept reader pipe) : Captures reader pipe := by
  cases kept with
  | reading reading =>
    refine ⟨?_, reading.truncated, ?_⟩
    · rw [reading.retained, ← List.take_eq_take_min]
    · rw [reading.eof]
      simpa using reading.open'
  | ended reads last end' before eof =>
    have same : consumed reader pipe.reads = consumed reader reads := by
      rw [last, consumed_succ, end']
      exact List.append_nil _
    refine ⟨?_, ?_, ?_⟩
    · rw [same, ← List.take_eq_take_min]
      exact before.retained
    · rw [same]
      exact before.truncated
    · exact ⟨fun _ => ⟨reads, by omega, end'⟩, fun _ => eof⟩

/-- The end is read where the stream is. -/
theorem Kept.whole (kept : Kept reader pipe) {stream : List UInt8} (carries : Carries reader stream)
    (eof : pipe.eof = true) : consumed reader pipe.reads = stream := by
  obtain ⟨end', isEnd, first, rfl⟩ := carries
  cases kept with
  | reading reading =>
    rw [reading.eof] at eof
    cases eof
  | ended reads last found before _ =>
    have same : reads = end' := by
      obtain less | same | more := Nat.lt_trichotomy reads end'
      · exact absurd found (first reads less)
      · exact same
      · exact absurd isEnd (before.open' end' more)
    rw [last, consumed_succ, found, same]
    exact List.append_nil _

theorem Kept.report (kept : Kept reader pipe) {stream : List UInt8} (carries : Carries reader stream)
    (eof : pipe.eof = true) (lossy : List UInt8 → String) : pipe.report lossy =
      (lossy (stream.take pipe.maximum), decide (pipe.maximum < stream.length)) := by
  have captures := kept.captures
  have whole := kept.whole carries eof
  have flag : pipe.truncated = decide (pipe.maximum < stream.length) := by
    rw [Bool.eq_iff_iff, captures.truncated, whole, decide_eq_true_eq]
  rw [CapturedPipe.report, captures.retained, whole, ← List.take_eq_take_min, flag, eof,
    Bool.not_true, Bool.or_false]

end Reader

/-- After every call the pipe holds the first bytes that were read, up to its maximum, and knows
whether there were more and whether that was all; a call reads 32 times at most.  Two runs that come
to the end of the same stream report the same. -/
theorem drain_captures (reader : Reader) (maximum calls : Nat) :
    let pipe := CapturedPipe.drains reader calls (.new maximum)
    pipe.maximum = maximum ∧ Captures reader pipe ∧
      (CapturedPipe.drain reader pipe).pipe.reads ≤ pipe.reads + 32 ∧
      ∀ (other : Reader) (calls' : Nat) (stream : List UInt8), Carries reader stream →
        Carries other stream → pipe.eof = true →
        (CapturedPipe.drains other calls' (.new maximum)).eof = true →
        ∀ lossy, pipe.report lossy =
          (CapturedPipe.drains other calls' (.new maximum)).report lossy := by
  intro pipe
  obtain ⟨kept, same⟩ := @drains_kept reader _ calls (.reading (reading_new maximum))
  refine ⟨same, kept.captures, (drain_kept kept).2.1, ?_⟩
  intro other calls' stream carries carries' eof eof' lossy
  obtain ⟨kept', same'⟩ := @drains_kept other _ calls' (.reading (reading_new maximum))
  rw [kept.report carries eof, kept'.report carries' eof', same, same']

end Nausicaa.Executor
