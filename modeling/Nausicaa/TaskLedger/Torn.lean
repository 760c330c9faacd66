import Nausicaa.TaskLedger.Serde

/-! # Parts of records

What a file looks like in which appends failed.  Behind its last newline there may be parts of
records (`Torn`); such a file cannot be opened (`Torn.refused`), and when a record is appended
to it, it can never be opened again (`Torn.record`). -/

namespace Nausicaa.TaskLedger

section Tails

variable {codec : Codec} {readable : Json.Value → Prop} {envelope : LedgerEnvelope}
variable {parts : List Bytes} {part : Bytes}

/-- The parts of a failed append. -/
theorem Codec.Cut.take (reads : envelope.event.Readable readable) {written : Nat}
    (some : 0 < written) (faithful : codec.Faithful readable) :
    codec.Cut readable ((Text.encode (codec.encode envelope)).take written) := by
  refine ⟨?_, envelope, reads, List.take_prefix _ _⟩
  intro none
  obtain zero | empty := List.take_eq_nil_iff.mp none
  · omega
  · have nothing : codec.encode envelope = "" := Text.encode_inj (empty.trans Text.encode_empty.symm)
    have head := (faithful.object envelope reads).1
    rw [nothing] at head
    cases head

theorem Codec.Cut.whole (reads : envelope.event.Readable readable)
    (faithful : codec.Faithful readable) :
    codec.Cut readable (Text.encode (codec.encode envelope)) := by
  have head := (faithful.object envelope reads).1
  refine ⟨?_, envelope, reads, List.prefix_refl _⟩
  intro empty
  have nothing : codec.encode envelope = "" := Text.encode_inj (empty.trans Text.encode_empty.symm)
  rw [nothing] at head
  cases head

theorem Codec.Cut.head (cut : codec.Cut readable part) (faithful : codec.Faithful readable) :
    ∃ rest, part = 0x7B :: rest := by
  obtain ⟨nonempty, envelope, reads, rest, shown⟩ := cut
  have head := (faithful.object envelope reads).1
  cases part with
  | nil => exact absurd rfl nonempty
  | cons byte part =>
    rw [Text.encode_eq_flatMap] at shown
    cases chars : (codec.encode envelope).toList with
    | nil =>
      rw [chars] at head
      cases head
    | cons first chars' =>
      rw [chars] at head shown
      cases head
      have byte' : byte = 0x7B := (List.cons.inj shown).1
      exact ⟨part, by rw [byte']⟩

theorem Codec.Cut.clean (cut : codec.Cut readable part) (faithful : codec.Faithful readable) :
    newline ∉ part := by
  obtain ⟨_, envelope, reads, begins⟩ := cut
  intro member
  exact newline_not_mem faithful reads (begins.subset member)

theorem parts_clean (all : ∀ part ∈ parts, codec.Cut readable part)
    (faithful : codec.Faithful readable) : newline ∉ parts.flatten := by
  intro member
  obtain ⟨part, present, there⟩ := List.mem_flatten.mp member
  exact (all part present).clean faithful there

theorem parts_head (all : ∀ part ∈ parts, codec.Cut readable part) (nonempty : parts ≠ [])
    (faithful : codec.Faithful readable) : ∃ rest, parts.flatten = 0x7B :: rest := by
  cases parts with
  | nil => exact absurd rfl nonempty
  | cons part parts =>
    obtain ⟨rest, rfl⟩ := (all part List.mem_cons_self).head faithful
    exact ⟨_, rfl⟩

/-- A line that consists of parts is refused. -/
theorem Replay.line_parts (faithful : codec.Faithful readable)
    (unjoined : codec.Unjoined readable) (all : ∀ part ∈ parts, codec.Cut readable part)
    (nonempty : parts ≠ []) (incomplete : codec.Incomplete readable parts) {line : Bytes}
    (shown : ∀ text, readLine line = .ok text → Text.encode text = parts.flatten)
    (replay : Replay) (index : Nat) : ∃ error, replay.line codec index line = .error error := by
  rw [Replay.line]
  cases read : readLine line with
  | error error => exact ⟨error, rfl⟩
  | ok text =>
    have bytes := shown text read
    obtain ⟨rest, head⟩ := parts_head all nonempty faithful
    have first : text.toList.head? = some '\x7b' :=
      Text.head?_encode (by decide) (bytes.trans head)
    obtain ⟨message, refused⟩ := unjoined parts all incomplete text bytes
    simp only [isBlank_object first (by decide), Bool.false_eq_true, ↓reduceIte, refused]
    exact ⟨_, rfl⟩

/-- The line at the end of the file, without a newline. -/
theorem readLine_rest {rest : Bytes} (clean : newline ∉ rest) {text : String}
    (read : readLine rest = .ok text) : Text.encode text = rest := by
  rw [readLine] at read
  split at read
  next text' decoded =>
    have bytes := Text.encode_of_decode decoded
    have oneLine : '\n' ∉ text'.toList := by
      intro member
      have there := newline_mem_encode member
      rw [bytes] at there
      exact clean there
    rw [stripLineEnd_of_not_mem oneLine] at read
    cases read
    exact bytes
  next => cases read

/-- A printed envelope ends with a brace. -/
theorem encode_brace (faithful : codec.Faithful readable)
    (reads : envelope.event.Readable readable) :
    ∃ before, Text.encode (codec.encode envelope) = before ++ [0x7D] := by
  obtain ⟨init, shown⟩ := List.getLast?_eq_some_iff.mp (faithful.object envelope reads).2
  exact ⟨Json.bytesOf init, by rw [Text.encode_eq_flatMap, shown, List.flatMap_append]; rfl⟩

/-- A line that ends with a whole record. -/
theorem readLine_line {body : Bytes} {text : String}
    (read : readLine (body ++ [0x7D] ++ [newline]) = .ok text) :
    Text.encode text = body ++ [0x7D] := by
  rw [readLine] at read
  split at read
  next text' decoded =>
    have bytes := Text.encode_of_decode decoded
    obtain ⟨before, rfl, body'⟩ := Text.encode_concat '\n' (by decide) bytes
    obtain ⟨init, rfl, _⟩ := Text.encode_concat '\x7d' (by decide) body'
    have last : (init ++ String.singleton '\x7d').toList.getLast? = some '\x7d' := by simp
    have stripped := stripLineEnd_newline last (by decide)
    cases read
    rw [← body']
    exact congrArg Text.encode stripped
  next => cases read

end Tails

/-! ## Files -/

/-- Behind the last newline there are parts of records that are no record. -/
inductive Torn (codec : Codec) (readable : Json.Value → Prop) : Bytes → Prop where
  | parts {base : Bytes} {parts : List Bytes} : Jsonl.Ended newline base → parts ≠ [] →
    (∀ part ∈ parts, codec.Cut readable part) → codec.Incomplete readable parts →
    Torn codec readable (base ++ parts.flatten)

/-- However the file goes on, it cannot be opened. -/
def Spoiled (codec : Codec) (file : Bytes) : Prop :=
  ∀ more : Bytes, ∃ error, openFile codec (file ++ more) = .error error

section Files

variable {codec : Codec} {readable : Json.Value → Prop} {envelope : LedgerEnvelope}
variable {file last : Bytes}

theorem openFile_refused
    (refused : ∃ error, Replay.start.lines codec 0 (Jsonl.lines newline file) = .error error) :
    ∃ error, openFile codec file = .error error := by
  obtain ⟨error, refused⟩ := refused
  exact ⟨error, by rw [openFile, refused]⟩

/-- A line that is refused behind lines that may be refused already. -/
theorem Replay.lines_refused {before after : List Bytes} {line : Bytes}
    (refused : ∀ (replay : Replay) (index : Nat), ∃ error, replay.line codec index line = .error error)
    (replay : Replay) (index : Nat) :
    ∃ error, replay.lines codec index (before ++ line :: after) = .error error := by
  induction before generalizing replay index with
  | nil =>
    obtain ⟨error, one⟩ := refused replay index
    exact ⟨error, by rw [List.nil_append, Replay.lines, one]⟩
  | cons first before ih =>
    rw [List.cons_append, Replay.lines]
    cases replay.line codec index first with
    | error error => exact ⟨error, rfl⟩
    | ok next => exact ih next (index + 1)

theorem Torn.refused (torn : Torn codec readable file) (faithful : codec.Faithful readable)
    (unjoined : codec.Unjoined readable) : ∃ error, openFile codec file = .error error := by
  cases torn with
  | @parts base parts ended nonempty all incomplete =>
    have clean := parts_clean all faithful
    have filled : parts.flatten ≠ [] := by
      obtain ⟨rest, head⟩ := parts_head all nonempty faithful
      rw [head]
      exact List.cons_ne_nil _ _
    apply openFile_refused
    rw [Jsonl.lines_append ended, Jsonl.lines_rest clean filled]
    exact Replay.lines_refused (Replay.line_parts faithful unjoined all nonempty incomplete
      fun text read => readLine_rest clean read) _ _

/-- One more part. -/
theorem Codec.Cut.concat {parts : List Bytes} (all : ∀ part ∈ parts, codec.Cut readable part)
    (cut : codec.Cut readable last) : ∀ part ∈ parts ++ [last], codec.Cut readable part := by
  intro part member
  cases List.mem_append.mp member with
  | inl earlier => exact all part earlier
  | inr same => exact List.mem_singleton.mp same ▸ cut

theorem Codec.Incomplete.concat {parts : List Bytes} (nonempty : parts ≠ []) (last : Bytes) :
    codec.Incomplete readable (parts ++ [last]) := by
  intro part only
  have one := congrArg List.length only
  rw [List.length_append] at one
  have none : parts = [] := List.eq_nil_of_length_eq_zero (by simpa using one)
  exact absurd none nonempty

/-- An append that fails again leaves one more part. -/
theorem Torn.again (torn : Torn codec readable file) (cut : codec.Cut readable last) :
    Torn codec readable (file ++ last) := by
  cases torn with
  | @parts base parts ended nonempty all incomplete =>
    have joined : base ++ parts.flatten ++ last = base ++ (parts ++ [last]).flatten := by simp
    rw [joined]
    exact .parts ended (by simp) (.concat all cut) (.concat nonempty last)

theorem Spoiled.append (spoiled : Spoiled codec file) (rest : Bytes) :
    Spoiled codec (file ++ rest) := by
  intro more
  rw [List.append_assoc]
  exact spoiled _

/-- The file in which a line is refused. -/
theorem Spoiled.line {base line : Bytes} (ended : Jsonl.Ended newline base) (clean : newline ∉ line)
    (refused : ∀ (replay : Replay) (index : Nat),
      ∃ error, replay.line codec index (line ++ [newline]) = .error error) :
    Spoiled codec (base ++ (line ++ [newline])) := by
  intro more
  apply openFile_refused
  rw [List.append_assoc, Jsonl.lines_append ended, List.append_assoc, List.singleton_append,
    Jsonl.lines_body clean]
  exact Replay.lines_refused refused _ _

/-- An append that succeeds makes the parts a line, which is refused. -/
theorem Spoiled.record {base : Bytes} {parts : List Bytes} (ended : Jsonl.Ended newline base)
    (nonempty : parts ≠ []) (all : ∀ part ∈ parts, codec.Cut readable part)
    (faithful : codec.Faithful readable) (unjoined : codec.Unjoined readable)
    (reads : envelope.event.Readable readable) :
    Spoiled codec (base ++ parts.flatten ++ LedgerState.record codec envelope) := by
  have all' := Codec.Cut.concat all (Codec.Cut.whole reads faithful)
  have joined : base ++ parts.flatten ++ LedgerState.record codec envelope =
      base ++ ((parts ++ [Text.encode (codec.encode envelope)]).flatten ++ [newline]) := by
    simp [LedgerState.record]
  rw [joined]
  refine .line ended (parts_clean all' faithful) ?_
  apply Replay.line_parts faithful unjoined all' (by simp) (.concat nonempty _)
  intro text read
  obtain ⟨before, brace⟩ := encode_brace faithful reads
  rw [List.flatten_append, List.flatten_singleton, brace, ← List.append_assoc] at read ⊢
  exact readLine_line read

theorem Torn.record (torn : Torn codec readable file) (faithful : codec.Faithful readable)
    (unjoined : codec.Unjoined readable) (reads : envelope.event.Readable readable) :
    Spoiled codec (file ++ LedgerState.record codec envelope) := by
  cases torn with
  | parts ended nonempty all incomplete =>
    exact .record ended nonempty all faithful unjoined reads

/-- A failing write at the end of a line leaves a part, unless nothing or a whole record was
written. -/
theorem Torn.cut (ended : Jsonl.Ended newline file) (faithful : codec.Faithful readable)
    (reads : envelope.event.Readable readable) {written : Nat} (some : 0 < written)
    (missing : written < (Text.encode (codec.encode envelope)).length) :
    Torn codec readable (file ++ (Text.encode (codec.encode envelope)).take written) := by
  have joined : file ++ (Text.encode (codec.encode envelope)).take written =
      file ++ [(Text.encode (codec.encode envelope)).take written].flatten := by simp
  rw [joined]
  refine .parts ended (by simp) ?_ ?_
  · intro part member
    exact List.mem_singleton.mp member ▸ .take reads some faithful
  intro part only
  cases only
  refine ⟨envelope, reads, List.take_prefix _ _, ?_⟩
  intro same
  have length := congrArg List.length same
  rw [List.length_take] at length
  omega

/-- A record that lacks its newline only is read all the same. -/
theorem read_unterminated (faithful : codec.Faithful readable)
    (reads : envelope.event.Readable readable) (ended : Jsonl.Ended newline file)
    {tasks tasks' : Tasks} {nextSequence : Nat}
    (read : Replay.start.lines codec 0 (Jsonl.lines newline file) = .ok ⟨tasks, nextSequence⟩)
    (applied : applyEvent tasks envelope.event envelope.atUnixMs = .ok tasks') :
    Replay.start.lines codec 0
      (Jsonl.lines newline (file ++ Text.encode (codec.encode envelope))) =
        .ok ⟨tasks', max nextSequence (envelope.sequence + 1)⟩ := by
  have whole := Codec.Cut.whole reads faithful
  have shown : readLine (Text.encode (codec.encode envelope)) = .ok (codec.encode envelope) := by
    rw [readLine, Text.decode_encode]
    exact congrArg Except.ok (stripLineEnd_of_not_mem (faithful.oneLine envelope reads))
  have line := Replay.line_read faithful reads shown
    (0 + (Jsonl.lines newline file).length) nextSequence applied
  rw [Jsonl.lines_append ended, Jsonl.lines_rest (whole.clean faithful) whole.1,
    Replay.lines_append read, Replay.lines, line]
  rfl

/-- A part behind a record that lacks its newline. -/
theorem Torn.behind (ended : Jsonl.Ended newline file) (faithful : codec.Faithful readable)
    (reads : envelope.event.Readable readable) (cut : codec.Cut readable last) :
    Torn codec readable (file ++ Text.encode (codec.encode envelope) ++ last) := by
  have joined : file ++ Text.encode (codec.encode envelope) ++ last =
      file ++ ([Text.encode (codec.encode envelope)] ++ [last]).flatten := by simp
  rw [joined]
  refine .parts ended (by simp) (.concat ?_ cut) (.concat (by simp) last)
  intro part member
  exact List.mem_singleton.mp member ▸ .whole reads faithful

end Files

end Nausicaa.TaskLedger
