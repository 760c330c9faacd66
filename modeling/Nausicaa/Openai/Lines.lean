import Nausicaa.Jsonl.Lines
import Nausicaa.Openai.Frames
import Nausicaa.Sse.Rendering

/-! # From bytes to events

However a stream is cut into chunks, the decoder reads its lines (`decode_lines`), and of the
lines it takes the events (`lines_events`). -/

namespace Nausicaa.Openai

open Json (Value)
open Text (stripPrefix trimEnd)
open Sse (dataOf events flush)
open Fallible (bind_ok foldlM_append_ok foldlM_cons_ok foldlM_nil_ok foldlM_singleton_ok)

/-- The text of a line, without its end. -/
def text (line : Bytes) : Option String :=
  (Text.decode (line.filter (· ≠ newline))).map (trimEnd '\r')

/-- The lines of a stream. -/
def texts (bytes : Bytes) : Option (List String) := (Jsonl.lines newline bytes).mapM text

namespace Decoder

section Lines

variable {parse : Parser} {decoder decoder' last : Decoder} {lines : List String}
variable {data : String}

/-! ## One line -/

/-- What a line does. -/
theorem line_cases {line : String} (ran : decoder.line parse line = .ok decoder') :
    (line = "" ∧ decoder.dispatch parse = .ok decoder') ∨
    (∃ data, dataOf line = some data ∧ decoder.done = false ∧
      decoder' = { decoder with data := decoder.data ++ data ++ "\n" }) ∨
    (line ≠ "" ∧ dataOf line = none ∧ decoder' = decoder) := by
  rw [Decoder.line] at ran
  split at ran
  next blank => exact .inl ⟨blank, ran⟩
  next content =>
    split at ran
    next data stripped =>
      split at ran
      next => cases ran
      next live =>
        dsimp only at ran
        split at ran
        next => cases ran
        next =>
          cases ran
          refine .inr (.inl ⟨_, ?_, Bool.eq_false_iff.mpr live, rfl⟩)
          rw [dataOf, stripped]
          rfl
    next other =>
      cases ran
      refine .inr (.inr ⟨content, ?_, rfl⟩)
      rw [dataOf, other]
      rfl

theorem dispatch_pending (ran : decoder.dispatch parse = .ok decoder') :
    decoder'.pending = decoder.pending ∧ decoder'.data = "" := by
  rw [dispatch] at ran
  split at ran
  next none =>
    cases ran
    exact ⟨rfl, none⟩
  next => exact event_kept ran

theorem line_pending {line : String} (ran : decoder.line parse line = .ok decoder') :
    decoder'.pending = decoder.pending := by
  obtain ⟨_, ran⟩ | ⟨data, _, _, rfl⟩ | ⟨_, _, rfl⟩ := line_cases ran
  · exact (dispatch_pending ran).1
  · rfl
  · rfl

/-! ## Events of lines -/

theorem dispatch_flush (tidy : decoder.done = true → decoder.data = "") :
    (flush decoder.data).foldlM (step parse) { decoder with data := "" } = .ok decoder' ↔
      decoder.dispatch parse = .ok decoder' := by
  rw [dispatch, flush]
  split
  next none =>
    rw [foldlM_nil_ok, ← none]
    simp
  next some =>
    have live : decoder.done = false := by
      rw [Bool.eq_false_iff]
      intro done
      exact some (tidy done)
    rw [foldlM_singleton_ok, step_ok]
    simp [live]

/-- Lines give the events that they hold. -/
theorem lines_events (tidy : decoder.done = true → decoder.data = "")
    (ran : lines.foldlM (line parse) decoder = .ok decoder')
    (ended : decoder'.dispatch parse = .ok last) :
    (events decoder.data lines).foldlM (step parse) { decoder with data := "" } = .ok last := by
  induction lines generalizing decoder with
  | nil =>
    rw [foldlM_nil_ok] at ran
    subst ran
    exact (dispatch_flush tidy).mpr ended
  | cons first lines ih =>
    obtain ⟨next, one, rest⟩ := foldlM_cons_ok.mp ran
    obtain ⟨rfl, one⟩ | ⟨data, shown, live, rfl⟩ | ⟨content, shown, rfl⟩ := line_cases one
    · rw [Sse.events_empty, foldlM_append_ok]
      have clear := (dispatch_pending one).2
      have behind := ih (fun _ => clear) rest
      refine ⟨next, (dispatch_flush tidy).mpr one, ?_⟩
      rw [clear] at behind
      rw [← behind, ← clear]
    · rw [Sse.events_data shown]
      refine ih ?_ rest
      intro done
      cases live.symm.trans done
    · rw [Sse.events_other content shown]
      exact ih tidy rest

/-- Lines whose events are taken are read. -/
theorem events_lines (tidy : decoder.done = true → decoder.data = "")
    (sizes : ∀ event ∈ events decoder.data lines, event.utf8ByteSize ≤ maxFrame)
    (ran : (events decoder.data lines).foldlM (step parse) { decoder with data := "" } =
      .ok last) :
    ∃ decoder', lines.foldlM (line parse) decoder = .ok decoder' ∧
      decoder'.dispatch parse = .ok last := by
  induction lines generalizing decoder with
  | nil => exact ⟨decoder, rfl, (dispatch_flush tidy).mp ran⟩
  | cons first lines ih =>
    by_cases blank : first = ""
    · subst blank
      rw [Sse.events_empty] at ran sizes
      obtain ⟨next, flushed, rest⟩ := foldlM_append_ok.mp ran
      have one := (dispatch_flush tidy).mp flushed
      have clear := (dispatch_pending one).2
      have same : { next with data := "" } = next := by rw [← clear]
      obtain ⟨decoder', others, ended⟩ := @ih next (fun _ => clear)
        (by rw [clear]; exact fun event member => sizes event (List.mem_append_right _ member))
        (by rw [clear, same]; exact rest)
      exact ⟨decoder', foldlM_cons_ok.mpr ⟨next, one, others⟩, ended⟩
    · cases shown : dataOf first with
      | none =>
        rw [Sse.events_other blank shown] at ran sizes
        obtain ⟨decoder', others, ended⟩ := ih tidy sizes ran
        refine ⟨decoder', foldlM_cons_ok.mpr ⟨decoder, ?_, others⟩, ended⟩
        rw [dataOf, Option.map_eq_none_iff] at shown
        rw [Decoder.line, if_neg blank, shown]
      | some data =>
        rw [Sse.events_data shown] at ran sizes
        obtain ⟨event, more, split, begins⟩ :=
          Sse.events_begin (Sse.concat_ne_empty (decoder.data ++ data)) lines
        have live : decoder.done = false := by
          rw [split] at ran
          obtain ⟨_, one, _⟩ := foldlM_cons_ok.mp ran
          exact (step_ok.mp one).1
        have small : (decoder.data ++ data ++ "\n").utf8ByteSize ≤ maxFrame := by
          have whole := sizes event (by rw [split]; exact List.mem_cons_self)
          exact Nat.le_trans (Text.utf8ByteSize_le begins) whole
        obtain ⟨decoder', others, ended⟩ :=
          @ih { decoder with data := decoder.data ++ data ++ "\n" }
            (fun done => by cases live.symm.trans done) sizes ran
        refine ⟨decoder', foldlM_cons_ok.mpr ⟨_, ?_, others⟩, ended⟩
        rw [dataOf, Option.map_eq_some_iff] at shown
        obtain ⟨rest, stripped, rfl⟩ := shown
        rw [Decoder.line, if_neg blank, stripped]
        simp only [live, Bool.false_eq_true, ↓reduceIte]
        rw [if_neg (Nat.not_lt.mpr small)]

/-! ## Lines of bytes -/

theorem push_append (decoder : Decoder) (bytes more : Bytes) :
    decoder.push parse (bytes ++ more) = (decoder.push parse bytes) >>= fun decoder =>
      decoder.push parse more := by
  induction bytes generalizing decoder with
  | nil => rfl
  | cons byte bytes ih =>
    rw [List.cons_append, push, push]
    split
    next =>
      cases decoder.endLine parse "stream contains invalid UTF-8" with
      | error => rfl
      | ok next => exact ih next
    next =>
      split
      next => rfl
      next => exact ih _

/-- How a stream is cut into chunks makes no difference. -/
theorem pushes_flatten (decoder : Decoder) (chunks : List Bytes) :
    decoder.pushes parse chunks = decoder.push parse chunks.flatten := by
  induction chunks generalizing decoder with
  | nil => rfl
  | cons chunk chunks ih =>
    rw [List.flatten_cons, push_append, pushes, List.foldlM_cons]
    apply bind_congr
    intro next
    exact ih next

theorem push_open {body rest : Bytes} (clean : newline ∉ body)
    (ran : decoder.push parse (body ++ rest) = .ok last) :
    push parse { decoder with pending := decoder.pending ++ body } rest = .ok last := by
  induction body generalizing decoder with
  | nil => simpa using ran
  | cons byte body ih =>
    rw [List.mem_cons, not_or] at clean
    rw [List.cons_append, push, if_neg (Ne.symm clean.1)] at ran
    split at ran
    next => cases ran
    next => simpa using ih clean.2 ran

theorem push_fits {body : Bytes} (clean : newline ∉ body)
    (fits : (decoder.pending ++ body).length ≤ maxFrame) (rest : Bytes) :
    decoder.push parse (body ++ rest) =
      push parse { decoder with pending := decoder.pending ++ body } rest := by
  induction body generalizing decoder with
  | nil => simp
  | cons byte body ih =>
    rw [List.mem_cons, not_or] at clean
    have fits' : (decoder.pending ++ [byte] ++ body).length ≤ maxFrame := by simpa using fits
    have small : ¬ (decoder.pending ++ [byte]).length > maxFrame := by
      simp only [List.length_append] at fits' ⊢
      omega
    rw [List.cons_append, push, if_neg (Ne.symm clean.1), if_neg small, ih clean.2 fits']
    simp

theorem text_clean {body : Bytes} (clean : newline ∉ body) :
    text body = (Text.decode body).map (trimEnd '\r') := by
  have same : body.filter (· ≠ newline) = body := by
    rw [List.filter_eq_self]
    intro byte member
    simp only [ne_eq, decide_not, Bool.not_eq_true', decide_eq_false_iff_not]
    intro same
    exact clean (same ▸ member)
  rw [text, same]

theorem text_ended (body : Bytes) : text (body ++ [newline]) = text body := by
  rw [text, text, List.filter_append]
  simp

theorem endLine_ok {message : String} (clean : newline ∉ decoder.pending)
    (ran : decoder.endLine parse message = .ok decoder') :
    ∃ line, text decoder.pending = some line ∧
      Decoder.line parse { decoder with pending := [] } line = .ok decoder' := by
  rw [endLine] at ran
  split at ran
  next => cases ran
  next line decoded =>
    refine ⟨trimEnd '\r' line, ?_, ran⟩
    rw [text_clean clean, decoded]
    rfl

/-- Pushing bytes reads their lines, and keeps the rest. -/
theorem push_lines {bodies : List Bytes} {rest : Bytes} (fresh : decoder.pending = [])
    (clean : ∀ body ∈ bodies, newline ∉ body) (cleanRest : newline ∉ rest)
    (ran : decoder.push parse (Jsonl.terminated newline bodies ++ rest) = .ok last) :
    ∃ lines before, bodies.mapM text = some lines ∧
      lines.foldlM (line parse) decoder = .ok before ∧
      last = { before with pending := rest } := by
  induction bodies generalizing decoder with
  | nil =>
    have ran : decoder.push parse (rest ++ []) = .ok last := by simpa using ran
    have opened := push_open cleanRest ran
    rw [fresh, List.nil_append] at opened
    cases opened
    exact ⟨[], decoder, rfl, rfl, rfl⟩
  | cons body bodies ih =>
    rw [Jsonl.terminated_cons, List.append_assoc] at ran
    have own := clean body List.mem_cons_self
    have opened := push_open own ran
    rw [fresh, List.nil_append, List.cons_append, push, if_pos rfl] at opened
    obtain ⟨next, first, rest⟩ := bind_ok.mp opened
    obtain ⟨line, shown, one⟩ := endLine_ok own first
    have shown : text body = some line := shown
    have same : { { decoder with pending := body } with pending := [] } = decoder := by
      rw [← fresh]
    rw [same] at one
    obtain ⟨lines, before, texts, others, left⟩ :=
      ih ((line_pending one).trans fresh) (fun other member =>
        clean other (List.mem_cons_of_mem _ member)) rest
    refine ⟨line :: lines, before, ?_, foldlM_cons_ok.mpr ⟨next, one, others⟩, left⟩
    rw [List.mapM_cons, shown, texts]
    rfl

/-- A line that is sent is read. -/
theorem push_sent {sent : Sse.Sent} (fresh : decoder.pending = []) (clean : Sse.Clean sent.line)
    (size : sent.body.length ≤ maxFrame) (rest : Bytes) :
    decoder.push parse (sent.bytes ++ rest) = (decoder.line parse sent.line) >>= fun decoder =>
      decoder.push parse rest := by
  have fits : (decoder.pending ++ sent.body).length ≤ maxFrame := by simpa [fresh] using size
  have decoded := Sse.Sent.body_decode clean
  rw [Option.map_eq_some_iff] at decoded
  obtain ⟨text, decoded, trimmed⟩ := decoded
  have same : { { decoder with pending := sent.body } with pending := [] } = decoder := by
    rw [← fresh]
  rw [Sse.Sent.bytes, List.append_assoc, push_fits (Sse.Sent.body_clean clean) fits, fresh,
    List.nil_append, List.singleton_append, push, if_pos (show 0x0A = newline from rfl), endLine]
  simp only [decoded, trimmed, same]

/-- The lines that are sent are read. -/
theorem push_sents {sents : List Sse.Sent} (fresh : decoder.pending = [])
    (clean : ∀ sent ∈ sents, Sse.Clean sent.line)
    (sizes : ∀ sent ∈ sents, sent.body.length ≤ maxFrame)
    (ran : (sents.map Sse.Sent.line).foldlM (line parse) decoder = .ok decoder') :
    decoder.push parse (sents.flatMap Sse.Sent.bytes) = .ok decoder' := by
  induction sents generalizing decoder with
  | nil => exact ran
  | cons sent sents ih =>
    obtain ⟨next, first, rest⟩ := foldlM_cons_ok.mp ran
    rw [List.flatMap_cons, push_sent fresh (clean _ List.mem_cons_self)
      (sizes _ List.mem_cons_self), first]
    exact ih ((line_pending first).trans fresh)
      (fun other member => clean other (List.mem_cons_of_mem _ member))
      (fun other member => sizes other (List.mem_cons_of_mem _ member)) rest

theorem lines_pending (ran : lines.foldlM (line parse) decoder = .ok decoder') :
    decoder'.pending = decoder.pending := by
  refine Fallible.foldlM_relates (fun before after : Decoder =>
    after.pending = before.pending) ?_ ?_ ?_ ran
  · intro _
    rfl
  · intro _ _ _ first second
    exact second.trans first
  · intro _ _ _ _ one
    exact line_pending one

end Lines

end Decoder

section Decode

variable {parse : Parser} {chunks : List Bytes} {value : Value}

/-- The lines of a body that ends in an open line, if there is one. -/
theorem texts_terminated {bodies : List Bytes} {rest : Bytes}
    (clean : ∀ body ∈ bodies, newline ∉ body) (cleanRest : newline ∉ rest) :
    texts (Jsonl.terminated newline bodies ++ rest) =
      (bodies ++ if rest = [] then [] else [rest]).mapM text := by
  rw [texts, Jsonl.lines_terminated clean cleanRest, List.mapM_append, List.mapM_append,
    List.mapM_map]
  simp only [Function.comp_def, Decoder.text_ended]

/-- Decoding is reading the lines, whatever the chunks are. -/
theorem decode_lines (decoded : decode parse chunks = .ok value) :
    ∃ lines decoder last, texts chunks.flatten = some lines ∧
      lines.foldlM (Decoder.line parse) {} = .ok decoder ∧
      decoder.dispatch parse = .ok last ∧ last.complete = .ok value := by
  obtain ⟨pushed, ran, finished⟩ := bind_ok.mp decoded
  rw [Decoder.pushes_flatten] at ran
  obtain ⟨bodies, rest, split, clean, cleanRest⟩ :=
    Jsonl.exists_terminated newline chunks.flatten
  rw [split] at ran ⊢
  obtain ⟨lines, before, shown, read, rfl⟩ := Decoder.push_lines rfl clean cleanRest ran
  obtain ⟨decoder, ended, finished⟩ := bind_ok.mp finished
  obtain ⟨last, dispatched, completed⟩ := bind_ok.mp finished
  rw [Decoder.lastLine] at ended
  rw [texts_terminated clean cleanRest]
  by_cases none : rest = []
  · subst none
    cases ended
    have fresh : before.pending = [] := Decoder.lines_pending read
    have same : { before with pending := [] } = before := by rw [← fresh]
    rw [same] at dispatched
    exact ⟨lines, before, last, by simpa using shown, read, dispatched, completed⟩
  · rw [if_neg none] at ended ⊢
    obtain ⟨line, own, one⟩ := Decoder.endLine_ok cleanRest ended
    have own : text rest = some line := own
    have fresh : before.pending = [] := Decoder.lines_pending read
    have same : { { before with pending := rest } with pending := [] } = before := by
      rw [← fresh]
    rw [same] at one
    refine ⟨lines ++ [line], decoder, last, ?_, ?_, dispatched, completed⟩
    · rw [List.mapM_append, shown]
      simp [own]
    · exact foldlM_append_ok.mpr ⟨before, read, foldlM_singleton_ok.mpr one⟩

/-- Decoding is taking the events. -/
theorem decode_events (decoded : decode parse chunks = .ok value) :
    ∃ lines last, texts chunks.flatten = some lines ∧
      (events "" lines).foldlM (Decoder.step parse) {} = .ok last ∧
      last.complete = .ok value := by
  obtain ⟨lines, decoder, last, shown, read, dispatched, completed⟩ := decode_lines decoded
  exact ⟨lines, last, shown, Decoder.lines_events (fun _ => rfl) read dispatched, completed⟩

end Decode

end Nausicaa.Openai
