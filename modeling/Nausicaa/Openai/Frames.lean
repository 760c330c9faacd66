import Nausicaa.Interaction.Fallible
import Nausicaa.Openai.Stream

/-! # Frames

What a frame tells, and that the decoder takes in just this (`Framed`): its call indexes and
its finish reason.  A decoder that is done takes no further event, so that the last event of
a complete stream is its only `[DONE]` (`steps_done`). -/

namespace Nausicaa.Openai

open Json (Value)
open Json.Value (asArray asNat asString)
open Text (trim)
open Fallible (bind_ok foldlM_append_ok foldlM_cons_ok foldlM_nil_ok foldlM_singleton_ok)

/-! ## What a frame tells -/

def choices (frame : Value) : List Value := ((frame.get "choices").bind asArray).getD []

def callIndexes (calls : List Value) : List Nat :=
  calls.filterMap fun call => (call.get "index").bind asNat

def deltaIndexes (delta : Value) : List Nat :=
  callIndexes (((delta.get "tool_calls").bind asArray).getD [])

def choiceIndexes (choice : Value) : List Nat := ((choice.get "delta").map deltaIndexes).getD []

/-- The finish reason of a choice, if it is not null. -/
def choiceReason (choice : Value) : List String :=
  ((choice.get "finish_reason").bind asString).toList

def indexes (frame : Value) : List Nat := (choices frame).flatMap choiceIndexes

def reasons (frame : Value) : List String := (choices frame).flatMap choiceReason

namespace Decoder

/-- What a frame changes. -/
structure Framed (before after : Decoder) (indexes : List Nat) (reasons : List String) :
    Prop where
  pending : after.pending = before.pending
  data : after.data = before.data
  done : after.done = before.done
  calls : ∀ index, index ∈ after.calls ↔ index ∈ before.calls ∨ index ∈ indexes
  reason : after.finishReason = reasons.getLast?.or before.finishReason

section Framed

variable {decoder decoder' last : Decoder} {more : List Nat} {others : List String}
variable {value : Value}

theorem Framed.refl (decoder : Decoder) : Framed decoder decoder [] [] :=
  ⟨rfl, rfl, rfl, by simp, rfl⟩

theorem Framed.trans {indexes : List Nat} {reasons : List String}
    (first : Framed decoder decoder' indexes reasons) (second : Framed decoder' last more others) :
    Framed decoder last (indexes ++ more) (reasons ++ others) where
  pending := second.pending.trans first.pending
  data := second.data.trans first.data
  done := second.done.trans first.done
  calls := by
    intro index
    rw [second.calls, first.calls, List.mem_append, or_assoc]
  reason := by
    rw [second.reason, first.reason, List.getLast?_append, Option.or_assoc]

/-- A loop takes in what its steps do. -/
theorem Framed.loop {step : Decoder → Value → Except TransportError Decoder}
    {indexes : Value → List Nat} {reasons : Value → List String}
    {values : List Value} (ran : values.foldlM step decoder = .ok decoder')
    (steps : ∀ decoder value decoder', step decoder value = .ok decoder' →
      Framed decoder decoder' (indexes value) (reasons value)) :
    Framed decoder decoder' (values.flatMap indexes) (values.flatMap reasons) := by
  induction values generalizing decoder with
  | nil =>
    rw [foldlM_nil_ok] at ran
    subst ran
    exact .refl decoder
  | cons value values ih =>
    obtain ⟨next, first, rest⟩ := foldlM_cons_ok.mp ran
    exact (steps _ _ _ first).trans (ih rest)

theorem toolIndex_ok {index : Nat} (found : toolIndex value = .ok index) :
    (value.get "index").bind asNat = some index := by
  rw [toolIndex] at found
  split at found
  next _ small =>
    cases found
    exact (Option.filter_eq_some_iff.mp small).1
  next => cases found

theorem call_framed (ran : decoder.call value = .ok decoder') :
    Framed decoder decoder' ((value.get "index").bind asNat).toList [] := by
  simp only [call, bind_ok] at ran
  obtain ⟨index, found, id, _, _, _, pieces, _, made⟩ := ran
  cases made
  rw [toolIndex_ok found]
  refine ⟨rfl, rfl, rfl, ?_, rfl⟩
  intro other
  simp only [Std.TreeMap.mem_insert, Nat.compare_eq_eq, Option.toList_some, List.mem_singleton]
  rw [or_comm, eq_comm]

theorem delta_framed (ran : decoder.delta value = .ok decoder') :
    Framed decoder decoder' (deltaIndexes value) [] := by
  simp only [delta, bind_ok] at ran
  obtain ⟨content, _, ran⟩ := ran
  have drafted : Framed decoder (decoder.draft content) [] [] := by
    rw [draft]
    split
    next => exact .refl decoder
    next => exact ⟨rfl, rfl, rfl, by simp, rfl⟩
  split at ran
  next => cases ran
  next =>
    rw [deltaIndexes, callIndexes]
    split at ran
    next none =>
      cases ran
      rw [none]
      exact drafted
    next calls found =>
      split at ran
      next => cases ran
      next calls shown =>
        have looped := drafted.trans (Framed.loop ran fun _ _ _ => call_framed)
        have silent : calls.flatMap (fun _ => ([] : List String)) = [] :=
          List.flatMap_eq_nil_iff.mpr fun _ _ => rfl
        rw [found, Option.bind_some, shown, Option.getD_some, List.filterMap_eq_flatMap_toList]
        rwa [silent] at looped

theorem close_framed (ran : decoder.close value = .ok decoder') :
    Framed decoder decoder' [] (choiceReason value) := by
  rw [close] at ran
  rw [choiceReason]
  split at ran
  next absent =>
    cases ran
    have none : (value.get "finish_reason").bind asString = none := by
      cases found : value.get "finish_reason" with
      | none => rfl
      | some reason =>
        rw [Value.present, found] at absent
        cases reason with
        | null => rfl
        | bool _ | number _ | string _ | array _ | object _ => cases absent
    rw [none]
    exact .refl decoder
  next reason found =>
    split at ran
    next text shown =>
      cases ran
      rw [(Option.filter_eq_some_iff.mp found).1, Option.bind_some, shown]
      exact ⟨rfl, rfl, rfl, by simp, rfl⟩
    next => cases ran

theorem choice_framed (ran : decoder.choice value = .ok decoder') :
    Framed decoder decoder' (choiceIndexes value) (choiceReason value) := by
  rw [choice] at ran
  split at ran
  next => cases ran
  next =>
    split at ran
    next => cases ran
    next =>
      obtain ⟨next, read, closed⟩ := bind_ok.mp ran
      have delta : Framed decoder next (choiceIndexes value) [] := by
        rw [choiceIndexes]
        cases found : value.get "delta" with
        | none =>
          rw [found] at read
          cases read
          exact .refl decoder
        | some delta =>
          rw [found] at read
          exact delta_framed read
      have both := delta.trans (close_framed closed)
      rwa [List.append_nil, List.nil_append] at both

theorem frame_framed (ran : decoder.frame value = .ok decoder') :
    Framed decoder decoder' (indexes value) (reasons value) := by
  rw [frame] at ran
  rw [indexes, reasons, choices]
  split at ran
  next => cases ran
  next =>
    split at ran
    next => cases ran
    next list found =>
      rw [found]
      split at ran
      next => cases ran
      next =>
        have looped := Framed.loop ran fun _ _ _ => choice_framed
        exact ⟨looped.pending, looped.data, looped.done, looped.calls, looped.reason⟩

end Framed

/-! ## Events -/

/-- A complete event. -/
def step (parse : Parser) (decoder : Decoder) (data : String) : Except TransportError Decoder :=
  if decoder.done then error "stream data followed [DONE]" else decoder.event parse data

section Events

variable {parse : Parser} {decoder decoder' : Decoder} {data : String} {events : List String}

/-- An event is the end of the stream, or a frame. -/
theorem event_cases (ran : decoder.event parse data = .ok decoder') :
    (trim Core.isWhitespace data = "[DONE]" ∧ decoder.finishReason.isSome ∧
      decoder' = { decoder with done := true }) ∨
    ∃ value, trim Core.isWhitespace data ≠ "[DONE]" ∧ parse data = .ok value ∧
      decoder.frame value = .ok decoder' := by
  rw [event] at ran
  split at ran
  next closing =>
    split at ran
    next => cases ran
    next reason =>
      cases ran
      exact .inl ⟨closing, by simpa [Option.isSome_iff_ne_none] using reason, rfl⟩
  next other =>
    split at ran
    next => cases ran
    next value parsed => exact .inr ⟨value, other, parsed, ran⟩

theorem event_kept (ran : decoder.event parse data = .ok decoder') :
    decoder'.pending = decoder.pending ∧ decoder'.data = decoder.data := by
  obtain ⟨_, _, rfl⟩ | ⟨value, _, _, framed⟩ := event_cases ran
  · exact ⟨rfl, rfl⟩
  · exact ⟨(frame_framed framed).pending, (frame_framed framed).data⟩

theorem step_ok : decoder.step parse data = .ok decoder' ↔
    decoder.done = false ∧ decoder.event parse data = .ok decoder' := by
  rw [step]
  split
  next done => simp [done, error]
  next live => simp [live]

/-- Behind the end there is no event. -/
theorem steps_closed (done : decoder.done = true)
    (ran : events.foldlM (step parse) decoder = .ok decoder') :
    events = [] ∧ decoder' = decoder := by
  cases events with
  | nil =>
    rw [foldlM_nil_ok] at ran
    exact ⟨rfl, ran.symm⟩
  | cons event events =>
    obtain ⟨next, first, _⟩ := foldlM_cons_ok.mp ran
    cases done.symm.trans (step_ok.mp first).1

/-- The end of the stream is the last event. -/
theorem steps_done (ran : events.foldlM (step parse) decoder = .ok decoder')
    (live : decoder.done = false) (done : decoder'.done = true) :
    ∃ frames closing before, events = frames ++ [closing] ∧
      frames.foldlM (step parse) decoder = .ok before ∧ before.done = false ∧
      trim Core.isWhitespace closing = "[DONE]" ∧ before.finishReason.isSome ∧
      decoder' = { before with done := true } := by
  obtain rfl | ⟨frames, closing, split⟩ := List.eq_nil_or_concat events
  · rw [foldlM_nil_ok] at ran
    subst ran
    cases live.symm.trans done
  · rw [List.concat_eq_append] at split
    subst split
    obtain ⟨before, framed, last⟩ := foldlM_append_ok.mp ran
    obtain ⟨open', last⟩ := step_ok.mp (foldlM_singleton_ok.mp last)
    obtain ⟨closing', reason, same⟩ | ⟨value, _, _, last⟩ := event_cases last
    · exact ⟨frames, closing, before, rfl, framed, open', closing', reason, same⟩
    · cases open'.symm.trans ((frame_framed last).done.symm.trans done)

/-- The events before it are frames. -/
theorem steps_framed {frames : List String}
    (ran : frames.foldlM (step parse) decoder = .ok decoder') (live : decoder'.done = false) :
    ∃ values, List.Forall₂ (fun text value => parse text = .ok value) frames values ∧
      Framed decoder decoder' (values.flatMap indexes) (values.flatMap reasons) := by
  induction frames generalizing decoder with
  | nil =>
    rw [foldlM_nil_ok] at ran
    subst ran
    exact ⟨[], .nil, .refl decoder⟩
  | cons text frames ih =>
    obtain ⟨next, first, rest⟩ := foldlM_cons_ok.mp ran
    obtain ⟨values, parsed, framed⟩ := ih rest
    obtain ⟨_, _, rfl⟩ | ⟨value, _, one, first⟩ := event_cases (step_ok.mp first).2
    · obtain ⟨_, rfl⟩ := steps_closed rfl rest
      cases live
    · exact ⟨value :: values, .cons one parsed, (frame_framed first).trans framed⟩

end Events

end Decoder

/-! ## The calls of a response -/

/-- A call whose fields are there. -/
structure Call.Complete (call : Call) : Prop where
  id : call.id ≠ ""
  name : call.name ≠ ""
  arguments : call.arguments ≠ ""

theorem completeCalls_ok {expected : Nat} {entries : List (Nat × Call)} {values : List Value} :
    completeCalls expected entries = .ok values ↔
      entries.map Prod.fst = List.range' expected entries.length ∧
      (∀ entry ∈ entries, entry.2.Complete) ∧
      values = entries.map fun entry => entry.2.toJson := by
  induction entries generalizing expected values with
  | nil => simp [completeCalls, eq_comm]
  | cons entry entries ih =>
    obtain ⟨index, call⟩ := entry
    rw [completeCalls]
    by_cases bad : index ≠ expected ∨ call.id = "" ∨ call.name = "" ∨ call.arguments = ""
    · rw [if_pos bad]
      constructor
      · intro none
        cases none
      · intro found
        obtain ⟨numbered, complete, _⟩ := found
        have own := complete _ List.mem_cons_self
        obtain other | empty | empty | empty := bad
        · rw [List.map_cons, List.length_cons, List.range'_succ] at numbered
          exact absurd (List.cons.inj numbered).1 other
        · exact absurd empty own.id
        · exact absurd empty own.name
        · exact absurd empty own.arguments
    · rw [if_neg bad, bind_ok]
      simp only [not_or, not_not] at bad
      obtain ⟨rfl, id, name, arguments⟩ := bad
      simp only [ih, List.map_cons, List.length_cons, List.range'_succ, List.cons.injEq,
        true_and, List.forall_mem_cons]
      constructor
      · intro found
        obtain ⟨others, ⟨numbered, complete, rfl⟩, made⟩ := found
        cases made
        exact ⟨numbered, ⟨⟨id, name, arguments⟩, complete⟩, rfl⟩
      · intro found
        obtain ⟨numbered, ⟨_, complete⟩, rfl⟩ := found
        exact ⟨_, ⟨numbered, complete, rfl⟩, rfl⟩

end Nausicaa.Openai
