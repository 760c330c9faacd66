import Nausicaa.Text.Trim

/-! # Server-sent events

The events of a stream of lines: a data line adds to the event, an empty line and the end of
the stream complete it, every other line is passed by.  A stream that is cut has the events
of the whole one, but for its last, which the whole one continues (`events_cut`). -/

namespace Nausicaa.Sse

open Text (stripPrefix)

/-- What a data line adds. -/
def dataOf (line : String) : Option String :=
  (stripPrefix "data:" line).map fun data => (stripPrefix " " data).getD data

/-- The event that has been collected. -/
def flush (buffer : String) : List String := if buffer = "" then [] else [buffer]

/-- The events of the lines behind the collected data. -/
def events (buffer : String) : List String → List String
  | [] => flush buffer
  | line :: lines =>
    if line = "" then flush buffer ++ events "" lines
    else match dataOf line with
      | some data => events (buffer ++ data ++ "\n") lines
      | none => events buffer lines

section Events

variable {buffer line data : String} {lines more : List String}

@[simp] theorem flush_empty : flush "" = [] := rfl

theorem flush_some (some : buffer ≠ "") : flush buffer = [buffer] := if_neg some

@[simp] theorem dataOf_empty : dataOf "" = none := by decide

@[simp] theorem events_empty : events buffer ("" :: lines) = flush buffer ++ events "" lines :=
  if_pos rfl

theorem events_data (shown : dataOf line = some data) :
    events buffer (line :: lines) = events (buffer ++ data ++ "\n") lines := by
  have content : line ≠ "" := by
    intro none
    rw [none, dataOf_empty] at shown
    cases shown
  rw [events, if_neg content, shown]

theorem events_other (content : line ≠ "") (shown : dataOf line = none) :
    events buffer (line :: lines) = events buffer lines := by
  rw [events, if_neg content, shown]

theorem concat_ne_empty (text : String) : text ++ "\n" ≠ "" := by
  intro empty
  have chars := congrArg String.toList empty
  simp at chars

/-- Behind an empty line, events start afresh. -/
theorem events_append (lines more : List String) :
    events buffer (lines ++ "" :: more) = events buffer lines ++ events "" more := by
  induction lines generalizing buffer with
  | nil => exact events_empty
  | cons line lines ih =>
    rw [List.cons_append]
    by_cases blank : line = ""
    · subst blank
      rw [events_empty, events_empty, ih, List.append_assoc]
    · cases shown : dataOf line with
      | none => rw [events_other blank shown, events_other blank shown, ih]
      | some data => rw [events_data shown, events_data shown, ih]

/-! ## Cutting -/

/-- What a data line adds grows with the line. -/
theorem dataOf_prefix (shown : dataOf line = some data) {longer : String}
    (extended : line.toList <+: longer.toList) :
    ∃ data', dataOf longer = some data' ∧ data.toList <+: data'.toList := by
  rw [dataOf, Option.map_eq_some_iff] at shown
  obtain ⟨rest, stripped, shown⟩ := shown
  obtain ⟨rest', stripped', grown⟩ := Text.stripPrefix_prefix stripped extended
  rw [dataOf, stripped']
  refine ⟨_, rfl, ?_⟩
  subst shown
  cases first : stripPrefix " " rest with
  | some spaced =>
    obtain ⟨spaced', again, grown'⟩ := Text.stripPrefix_prefix first grown
    simpa [again] using grown'
  | none =>
    cases second : stripPrefix " " rest' with
    | none => simpa [second] using grown
    | some spaced =>
      -- The space is the first thing that is missing.
      rw [Text.stripPrefix_some] at second
      have empty : rest = "" := by
        cases chars : rest.toList with
        | nil => exact String.toList_eq_nil_iff.mp chars
        | cons char chars' =>
          rw [second, chars, String.toList_append] at grown
          have space : char = ' ' := (List.cons_prefix_cons.mp grown).1
          have split : rest = " " ++ String.ofList chars' := by
            rw [← String.toList_inj, chars, space]
            simp
          rw [split, Text.stripPrefix_append] at first
          cases first
      simp [empty]

/-- What was collected begins the next event. -/
theorem events_begin (some : buffer ≠ "") (lines : List String) :
    ∃ event rest, events buffer lines = event :: rest ∧ buffer.toList <+: event.toList := by
  induction lines generalizing buffer with
  | nil => exact ⟨buffer, [], flush_some some, List.prefix_rfl⟩
  | cons line lines ih =>
    by_cases blank : line = ""
    · subst blank
      rw [events_empty, flush_some some]
      exact ⟨buffer, _, rfl, List.prefix_rfl⟩
    · cases shown : dataOf line with
      | none =>
        rw [events_other blank shown]
        exact ih some
      | some data =>
        rw [events_data shown]
        obtain ⟨event, rest, split, begins⟩ := ih (concat_ne_empty (buffer ++ data))
        refine ⟨event, rest, split, List.IsPrefix.trans ?_ begins⟩
        simp [String.toList_append, List.append_assoc]

/-- Lines without an event have no data. -/
theorem dataOf_of_events (silent : events "" lines = []) : ∀ line ∈ lines, dataOf line = none := by
  induction lines with
  | nil => simp
  | cons line lines ih =>
    by_cases blank : line = ""
    · subst blank
      rw [events_empty] at silent
      simpa using ih silent
    · cases shown : dataOf line with
      | none =>
        rw [events_other blank shown] at silent
        simpa [shown] using ih silent
      | some data =>
        rw [events_data shown] at silent
        obtain ⟨event, rest, split, _⟩ := events_begin (concat_ne_empty ("" ++ data)) lines
        cases silent.symm.trans split

/-- A cut stream: its last line can be incomplete. -/
inductive Cut : List String → List String → Prop where
  | stop (more : List String) : Cut [] more
  | line {line longer : String} (more : List String) :
    line.toList <+: longer.toList → Cut [line] (longer :: more)
  | cons {lines more : List String} (line : String) :
    Cut lines more → Cut (line :: lines) (line :: more)

/-- Nothing, or terminated data. -/
def Collected (buffer : String) : Prop := buffer = "" ∨ ∃ data, buffer = data ++ "\n"

/-- The second event is the first one, or continues it before its end. -/
def Continues (event longer : String) : Prop :=
  ∃ data, event = data ++ "\n" ∧ data.toList <+: longer.toList

theorem Collected.continues (collected : Collected buffer) (some : buffer ≠ "")
    {longer : String} (begins : buffer.toList <+: longer.toList) : Continues buffer longer := by
  obtain ⟨data, split⟩ := collected.resolve_left some
  refine ⟨data, split, List.IsPrefix.trans ?_ begins⟩
  simp [split]

theorem flush_split {frames : List String} {event : String}
    (split : flush buffer = frames ++ [event]) : frames = [] ∧ event = buffer ∧ buffer ≠ "" := by
  by_cases none : buffer = ""
  · rw [none, flush_empty] at split
    cases frames <;> cases split
  · rw [flush_some none] at split
    cases frames with
    | nil =>
      cases split
      exact ⟨rfl, rfl, none⟩
    | cons first frames => cases frames <;> cases split

/-- Whatever lines come behind it, an event that is collected is continued. -/
theorem flush_continues (collected : Collected buffer) {frames : List String} {event : String}
    (split : flush buffer = frames ++ [event]) (lines : List String) :
    ∃ longer rest, events buffer lines = frames ++ longer :: rest ∧ Continues event longer := by
  obtain ⟨rfl, rfl, some⟩ := flush_split split
  obtain ⟨longer, rest, found, begins⟩ := events_begin some lines
  exact ⟨longer, rest, found, collected.continues some begins⟩

/-- The last event of a cut stream is continued in the whole one. -/
theorem events_cut (cut : Cut lines more) {frames : List String} {event : String}
    (collected : Collected buffer) (split : events buffer lines = frames ++ [event]) :
    ∃ longer rest, events buffer more = frames ++ longer :: rest ∧ Continues event longer := by
  induction cut generalizing buffer frames with
  | stop more => exact flush_continues collected split more
  | @line line longer more extended =>
    by_cases blank : line = ""
    · apply flush_continues collected
      simpa [blank, events] using split
    · cases shown : dataOf line with
      | none =>
        rw [events_other blank shown] at split
        exact flush_continues collected split _
      | some data =>
        rw [events_data shown] at split
        obtain ⟨rfl, rfl, _⟩ := flush_split split
        obtain ⟨data', shown', grown⟩ := dataOf_prefix shown extended
        obtain ⟨event, rest, found, begins⟩ :=
          events_begin (concat_ne_empty (buffer ++ data')) more
        refine ⟨event, rest, ?_, buffer ++ data, rfl, List.IsPrefix.trans ?_ begins⟩
        · rw [events_data shown', found]
          rfl
        · simp only [String.toList_append, List.append_assoc, List.prefix_append_right_inj]
          exact grown.trans (List.prefix_append _ _)
  | @cons lines more line cut ih =>
    by_cases blank : line = ""
    · rw [blank, events_empty] at split ⊢
      obtain none | ⟨frames', event', behind⟩ := List.eq_nil_or_concat (events "" lines)
      · rw [none, List.append_nil] at split
        obtain ⟨rfl, rfl, some⟩ := flush_split split
        rw [flush_some some]
        exact ⟨event, _, rfl, collected.continues some List.prefix_rfl⟩
      · rw [List.concat_eq_append] at behind
        rw [behind, ← List.append_assoc] at split
        obtain ⟨rfl, same⟩ := List.append_inj' split rfl
        cases same
        obtain ⟨longer, rest, found, continues⟩ := ih (.inl rfl) behind
        rw [found, ← List.append_assoc]
        exact ⟨longer, rest, rfl, continues⟩
    · cases shown : dataOf line with
      | none =>
        rw [events_other blank shown] at split ⊢
        exact ih collected split
      | some data =>
        rw [events_data shown] at split ⊢
        exact ih (.inr ⟨_, rfl⟩) split

end Events

end Nausicaa.Sse
