import Nausicaa.Openai.Lines

/-! # Truncated streams

A stream that is cut off does not give another response than the whole one
(`decode_truncated`): it has the events of the whole stream but for its last, and if that is
`[DONE]` then so is what the whole stream has in its place. -/

namespace Nausicaa.Openai

open Json (Value)
open Text (trim trimEnd)
open Sse (dataOf events)
open Fallible (bind_ok foldlM_append_ok foldlM_cons_ok)

/-! ## Lines of a cut stream -/

section Cut

variable {body more : Bytes} {line longer : String}

theorem text_grows (clean : newline ∉ body) (cleanMore : newline ∉ more)
    (shown : text body = some line) (grown : text (body ++ more) = some longer) :
    line.toList <+: longer.toList := by
  have both : newline ∉ body ++ more := by simp [clean, cleanMore]
  rw [Decoder.text_clean clean, Option.map_eq_some_iff] at shown
  rw [Decoder.text_clean both, Option.map_eq_some_iff] at grown
  obtain ⟨first, decoded, rfl⟩ := shown
  obtain ⟨second, decoded', rfl⟩ := grown
  exact Text.trimEnd_prefix (Text.prefix_of_decode decoded decoded')

/-- What the lines of a stream become when it goes on. -/
theorem texts_append {bodies : List Bytes} {rest : Bytes}
    (clean : ∀ body ∈ bodies, newline ∉ body) (cleanRest : newline ∉ rest) (more : Bytes) :
    ∃ behind, texts (Jsonl.terminated newline bodies ++ rest ++ more) =
        (bodies ++ behind).mapM text ∧
      (rest = [] ∨ ∃ added others, behind = (rest ++ added) :: others ∧ newline ∉ added) := by
  obtain ⟨bodies', rest', rfl, clean', cleanRest'⟩ := Jsonl.exists_terminated newline more
  cases bodies' with
  | nil =>
    have both : newline ∉ rest ++ rest' := by simp [cleanRest, cleanRest']
    refine ⟨if rest ++ rest' = [] then [] else [rest ++ rest'], ?_, ?_⟩
    · rw [← texts_terminated clean both]
      simp
    · by_cases none : rest = []
      · exact .inl none
      · exact .inr ⟨rest', [], by simp [none], cleanRest'⟩
  | cons body bodies' =>
    have own := clean' body List.mem_cons_self
    refine ⟨(rest ++ body) :: bodies' ++ if rest' = [] then [] else [rest'], ?_,
      .inr ⟨body, _, rfl, own⟩⟩
    have all : ∀ other ∈ bodies ++ (rest ++ body) :: bodies', newline ∉ other := by
      intro other member
      rw [List.mem_append, List.mem_cons] at member
      obtain before | rfl | behind := member
      · exact clean other before
      · simp [cleanRest, own]
      · exact clean' other (List.mem_cons_of_mem _ behind)
    rw [← List.append_assoc bodies, ← texts_terminated all cleanRest', Jsonl.terminated_append]
    simp

theorem mapM_cons_ok {α β : Type} {read : α → Option β} {item : α} {items : List α}
    {results : List β} : (item :: items).mapM read = some results ↔
      ∃ first others, read item = some first ∧ items.mapM read = some others ∧
        results = first :: others := by
  rw [List.mapM_cons]
  cases read item with
  | none => simp
  | some first =>
    cases items.mapM read with
    | none => simp
    | some others => simp [eq_comm]

theorem cut_texts {bodies behind : List Bytes} {rest : Bytes} {lines whole : List String}
    (cleanRest : newline ∉ rest)
    (shown : (bodies ++ if rest = [] then [] else [rest]).mapM text = some lines)
    (all : (bodies ++ behind).mapM text = some whole)
    (goes : rest = [] ∨ ∃ added others, behind = (rest ++ added) :: others ∧ newline ∉ added) :
    Sse.Cut lines whole := by
  induction bodies generalizing lines whole with
  | nil =>
    rw [List.nil_append] at shown all
    by_cases none : rest = []
    · rw [if_pos none] at shown
      cases shown
      exact .stop whole
    · rw [if_neg none] at shown
      obtain ⟨added, others, rfl, cleanAdded⟩ := goes.resolve_left none
      obtain ⟨line, _, own, last, rfl⟩ := mapM_cons_ok.mp shown
      cases last
      obtain ⟨longer, more, grown, _, rfl⟩ := mapM_cons_ok.mp all
      exact .line more (text_grows cleanRest cleanAdded own grown)
  | cons body bodies ih =>
    rw [List.cons_append] at shown all
    obtain ⟨line, lines', own, others, rfl⟩ := mapM_cons_ok.mp shown
    obtain ⟨line', whole', own', others', rfl⟩ := mapM_cons_ok.mp all
    cases own.symm.trans own'
    exact .cons line (ih others others')

/-- The lines of a cut stream are those of the whole one, but for the last. -/
theorem texts_cut {bytes more : Bytes} {lines whole : List String}
    (shown : texts bytes = some lines) (all : texts (bytes ++ more) = some whole) :
    Sse.Cut lines whole := by
  obtain ⟨bodies, rest, rfl, clean, cleanRest⟩ := Jsonl.exists_terminated newline bytes
  obtain ⟨behind, split, goes⟩ := texts_append clean cleanRest more
  rw [texts_terminated clean cleanRest] at shown
  rw [split] at all
  exact cut_texts cleanRest shown all goes

end Cut

/-! ## Truncation -/

section Truncation

variable {parse : Parser} {chunks chunks' : List Bytes} {value value' : Value}

/-- `serde_json` reads nothing that begins with `[DONE]`: no JSON text begins so. -/
def RejectsDone (parse : Parser) : Prop := ∀ blank rest : String, Core.isBlank blank = true →
  ∃ message, parse (blank ++ "[DONE]" ++ rest) = .error message

/-- What continues a `[DONE]` is one, or is not read. -/
theorem continues_done {closing longer : String} (rejects : RejectsDone parse)
    (closes : trim Core.isWhitespace closing = "[DONE]")
    (continues : Sse.Continues closing longer) :
    trim Core.isWhitespace longer = "[DONE]" ∨ ∃ message, parse longer = .error message := by
  obtain ⟨data, rfl, extended⟩ := continues
  obtain ⟨before, after, split, blank, _⟩ := Text.trim_split Core.isWhitespace (data ++ "\n")
  rw [closes] at split
  obtain ⟨tail, whole⟩ := extended
  -- The newline is behind `[DONE]`, so that the data holds all of it.
  have begun : ∃ rest, data = before ++ "[DONE]" ++ rest := by
    obtain none | ⟨chars, last, ends⟩ := List.eq_nil_or_concat after.toList
    · rw [String.toList_eq_nil_iff.mp none, String.append_empty] at split
      have chars := congrArg (fun text => text.toList.getLast?) split
      simp at chars
    · refine ⟨String.ofList chars, ?_⟩
      have chars' := congrArg String.toList split
      rw [String.toList_append, String.toList_append, ends, List.concat_eq_append,
        ← List.append_assoc] at chars'
      have same := (List.append_inj' chars' rfl).1
      rw [← String.toList_inj, same]
      simp
  obtain ⟨rest, rfl⟩ := begun
  obtain ⟨message, refused⟩ := rejects before (rest ++ String.ofList tail) blank
  refine .inr ⟨message, ?_⟩
  rw [← refused]
  apply congrArg
  rw [← String.toList_inj, ← whole]
  simp [String.toList_append, List.append_assoc]

/-- A stream that is cut off fails, or gives the response of the whole one. -/
theorem cut_response (rejects : RejectsDone parse) {more : Bytes}
    (whole : chunks.flatten = chunks'.flatten ++ more) (decoded : decode parse chunks = .ok value)
    (cut : decode parse chunks' = .ok value') : value' = value := by
  obtain ⟨lines, last, shown, ran, completed⟩ := decode_events decoded
  obtain ⟨lines', last', shown', ran', completed'⟩ := decode_events cut
  have done : last'.done = true := by
    rw [Decoder.complete] at completed'
    split at completed'
    next done => exact done
    next => cases completed'
  obtain ⟨frames, closing, before, split, framed, live, closes, reason, rfl⟩ :=
    Decoder.steps_done ran' rfl done
  rw [whole] at shown
  obtain ⟨longer, rest, found, continues⟩ :=
    Sse.events_cut (texts_cut shown' shown) (.inl rfl) split
  rw [found, foldlM_append_ok] at ran
  obtain ⟨before', framed', ran⟩ := ran
  cases framed.symm.trans framed'
  obtain ⟨next, closed, ran⟩ := foldlM_cons_ok.mp ran
  obtain ⟨_, closed⟩ := Decoder.step_ok.mp closed
  have same : next = { before with done := true } := by
    obtain ⟨_, _, same⟩ | ⟨frame, other, parsed, _⟩ := Decoder.event_cases closed
    · exact same
    · obtain again | ⟨message, refused⟩ := continues_done rejects closes continues
      · exact absurd again other
      · cases refused.symm.trans parsed
  subst same
  obtain ⟨_, rfl⟩ := Decoder.steps_closed rfl ran
  exact Except.ok.inj (completed'.symm.trans completed)

/-- What a response comes from. -/
structure Complete (parse : Parser) (lines : List String) (value : Value) (frames : List String)
    (closing : String) (values : List Value) (calls : List Call) : Prop where
  events : events "" lines = frames ++ [closing]
  closes : trim Core.isWhitespace closing = "[DONE]"
  behind : ∀ before after, lines = before ++ "" :: after →
    Sse.events "" before = frames ++ [closing] → ∀ line ∈ after, dataOf line = none
  parsed : List.Forall₂ (fun text value => parse text = .ok value) frames values
  finished : ∃ frame ∈ values, reasons frame ≠ []
  numbered : ∀ index, (∃ frame ∈ values, index ∈ indexes frame) ↔ index < calls.length
  complete : ∀ call ∈ calls, call.Complete
  body : ∃ decoder : Decoder, value = decoder.body (calls.map Call.toJson)

theorem complete_ok {decoder : Decoder} (completed : decoder.complete = .ok value) :
    decoder.done = true ∧ ∃ calls : List Call, (∀ index, index ∈ decoder.calls ↔ index < calls.length) ∧
      (∀ call ∈ calls, call.Complete) ∧ value = decoder.body (calls.map Call.toJson) := by
  rw [Decoder.complete] at completed
  split at completed
  next done =>
    obtain ⟨values, collected, made⟩ := bind_ok.mp completed
    cases made
    obtain ⟨numbered, complete, rfl⟩ := completeCalls_ok.mp collected
    refine ⟨done, decoder.calls.toList.map Prod.snd, ?_, ?_, ?_⟩
    · intro index
      rw [← Std.TreeMap.mem_keys, ← Std.TreeMap.map_fst_toList_eq_keys, numbered,
        List.mem_range'_1, List.length_map]
      omega
    · intro call member
      obtain ⟨entry, present, rfl⟩ := List.mem_map.mp member
      exact complete entry present
    · rw [List.map_map]
      rfl
  next => cases completed

theorem decode_complete (decoded : decode parse chunks = .ok value) :
    ∃ lines frames closing values calls, texts chunks.flatten = some lines ∧
      Complete parse lines value frames closing values calls := by
  obtain ⟨lines, last, shown, ran, completed⟩ := decode_events decoded
  obtain ⟨done, calls, numbered, complete, rfl⟩ := complete_ok completed
  obtain ⟨frames, closing, before, split, framed, live, closes, reason, rfl⟩ :=
    Decoder.steps_done ran rfl done
  obtain ⟨values, parsed, taken⟩ := Decoder.steps_framed framed live
  refine ⟨lines, frames, closing, values, calls, shown, split, closes, ?_, parsed, ?_, ?_,
    complete, ⟨_, rfl⟩⟩
  · intro before after ends same
    rw [ends, Sse.events_append, same] at split
    exact Sse.dataOf_of_events (List.append_right_eq_self.mp split)
  · have given : values.flatMap reasons ≠ [] := by
      intro none
      rw [taken.reason, none] at reason
      cases reason
    rw [Ne, List.flatMap_eq_nil_iff] at given
    push Not at given
    exact given
  · intro index
    have member : index ∈ before.calls ↔ index < calls.length := numbered index
    rw [← member, taken.calls, List.mem_flatMap]
    simp

/-- A cut stream does not give another response, and a response is complete. -/
theorem decode_truncated (rejects : RejectsDone parse) (decoded : decode parse chunks = .ok value) :
    (∀ (chunks' : List Bytes) (more : Bytes), chunks.flatten = chunks'.flatten ++ more →
      ∀ value', decode parse chunks' = .ok value' → value' = value) ∧
    ∃ lines frames closing values calls, texts chunks.flatten = some lines ∧
      Complete parse lines value frames closing values calls := by
  constructor
  · intro chunks' more whole value' cut
    exact cut_response rejects whole decoded cut
  · exact decode_complete decoded

end Truncation

namespace Sample

def frame : Value := .object [("choices", .array [.object [
  ("index", .number (.posInt 0)), ("finish_reason", .string "stop")]])]

def parse : Parser := fun text => if text = frame.text ++ "\n" then .ok frame
  else .error "expected value"

def chunk : Bytes := Text.encode ("data: " ++ frame.text ++ "\n\ndata: [DONE]\n")

def response : Value := ({ finishReason := some "stop" } : Decoder).body []

theorem decoded : decode parse [chunk] = .ok response := by
  decide +kernel

theorem rejectsDone : RejectsDone parse := by
  intro blank rest isBlank
  refine ⟨"expected value", if_neg ?_⟩
  intro same
  have heads := congrArg (fun text => text.toList.head?) same
  simp only [String.toList_append] at heads
  cases chars : blank.toList with
  | nil =>
    rw [chars] at heads
    cases heads
  | cons char chars' =>
    rw [Core.isBlank, chars, List.all_cons, Bool.and_eq_true] at isBlank
    rw [chars] at heads
    cases heads
    exact absurd isBlank.1 (by decide)

end Sample

/-- The stream is cut inside its last line. -/
theorem decode_truncated_sample : decode Sample.parse [Sample.chunk.take 60] = .ok Sample.response ∨
    ∃ error, decode Sample.parse [Sample.chunk.take 60] = .error error := by
  have whole : [Sample.chunk].flatten = [Sample.chunk.take 60].flatten ++ Sample.chunk.drop 60 := by
    simp
  have same := (decode_truncated Sample.rejectsDone Sample.decoded).1 [Sample.chunk.take 60]
    (Sample.chunk.drop 60) whole
  cases cut : decode Sample.parse [Sample.chunk.take 60] with
  | ok value =>
    rw [same value cut]
    exact .inl rfl
  | error error => exact .inr ⟨error, rfl⟩

end Nausicaa.Openai
