import Mathlib.Data.List.Sort
import Nausicaa.Openai.Deltas
import Nausicaa.Openai.Lines
import Nausicaa.Openai.Response

/-! # Streaming agrees

However a message is split into deltas, frames, lines and chunks (`Rendering`), what the
decoder makes of it is parsed like the message in one body (`Rendering.agrees`). -/

namespace Nausicaa.Openai

open Json (Value)
open Text (trim trimEnd)
open Fallible (bind_ok foldlM_append_ok foldlM_cons_ok foldlM_nil_ok foldlM_singleton_ok)

/-- Frames that say a message together. -/
structure Message.Split (message : Message) (frames : List Frame) : Prop where
  content : String.join (frames.map Frame.content) = message.content
  indexes : ∀ frame ∈ frames, ∀ piece ∈ frame.pieces, piece.index < message.calls.length
  calls : ∀ index call, message.calls[index]? = some call →
    let pieces := piecesAt index (frames.flatMap Frame.pieces)
    String.join (pieces.map fun piece => piece.id.getD "") = call.id ∧
      String.join (pieces.map fun piece => piece.name.getD "") = call.name ∧
      String.join (pieces.map fun piece => piece.arguments.getD "") = call.arguments
  reason : ∃ before last after, frames = before ++ last :: after ∧
    last.reason = some message.finishReason ∧
    (∀ frame ∈ before, frame.reason = none) ∧ ∀ frame ∈ after, frame.choice = none
  usage : (frames.filterMap Frame.usage).getLast? = some message.usage

/-- The text of an event that says a frame. -/
structure Frame.Told (parse : Parser) (text : String) (frame : Frame) : Prop where
  other : trim Core.isWhitespace text ≠ "[DONE]"
  parsed : ∃ value, parse text = .ok value ∧ frame.Shown value

/-- A stream that says a message. -/
structure Rendering (parse : Parser) (message : Message) where
  frames : List Frame
  split : message.Split frames
  blocks : List (List Sse.Piece)
  fits : ∀ block ∈ blocks, ∀ piece ∈ block, piece.Fits
  events : ∃ texts closing, Sse.blockEvents blocks = texts ++ [closing] ∧
    List.Forall₂ (Frame.Told parse) texts frames ∧ trim Core.isWhitespace closing = "[DONE]"
  sent : List Sse.Sent
  lines : sent.map Sse.Sent.line = Sse.blockLines blocks
  lineSizes : ∀ line ∈ sent, line.body.length ≤ maxFrame
  eventSizes : ∀ event ∈ Sse.blockEvents blocks, event.utf8ByteSize ≤ maxFrame

def Rendering.bytes {parse : Parser} {message : Message} (rendering : Rendering parse message) :
    Bytes :=
  rendering.sent.flatMap Sse.Sent.bytes

/-! ## Frames of a message -/

section Frames

variable {parse : Parser} {message : Message} {decoder : Decoder}
variable {texts : List String} {frames : List Frame}

theorem frame_told {text : String} {frame : Frame} (told : frame.Told parse text)
    (small : ∀ piece ∈ frame.pieces, piece.index < 128) (live : decoder.done = false)
    (unfinished : frame.choice = none ∨ decoder.finishReason = none) :
    decoder.step parse text = .ok (decoder.takeFrame frame) := by
  obtain ⟨other, value, parsed, shown⟩ := told
  have small' : ∀ delta ∈ frame.choice, ∀ piece ∈ delta.calls, piece.index < 128 := by
    intro delta given piece member
    apply small
    rw [Frame.pieces, Option.mem_def.mp given]
    exact member
  rw [Decoder.step_ok]
  refine ⟨live, ?_⟩
  rw [Decoder.event, if_neg other, parsed]
  exact frame_shown shown small' unfinished

/-- Frames are taken in where no finish reason comes before a choice. -/
theorem frames_told (told : List.Forall₂ (Frame.Told parse) texts frames)
    (small : ∀ frame ∈ frames, ∀ piece ∈ frame.pieces, piece.index < 128)
    (live : decoder.done = false)
    (unfinished : (decoder.finishReason = none ∧ ∀ frame ∈ frames, frame.reason = none) ∨
      ∀ frame ∈ frames, frame.choice = none) :
    texts.foldlM (Decoder.step parse) decoder = .ok (decoder.takeFrames frames) := by
  induction told generalizing decoder with
  | nil => rfl
  | @cons text frame texts frames first _ ih =>
    have own : frame.choice = none ∨ decoder.finishReason = none := by
      obtain ⟨none, _⟩ | none := unfinished
      · exact .inr none
      · exact .inl (none frame List.mem_cons_self)
    have one := frame_told first (small frame List.mem_cons_self) live own
    refine foldlM_cons_ok.mpr ⟨_, one, ih ?_ ?_ ?_⟩
    · exact fun other member => small other (List.mem_cons_of_mem _ member)
    · exact (decoder.takeFrame_done frame).trans live
    · obtain ⟨none, silent⟩ | none := unfinished
      · refine .inl ⟨?_, fun other member => silent other (List.mem_cons_of_mem _ member)⟩
        rw [Decoder.takeFrame_reason, silent frame List.mem_cons_self, none]
        rfl
      · exact .inr fun other member => none other (List.mem_cons_of_mem _ member)

theorem takeFrames_reason (silent : ∀ frame ∈ frames, frame.reason = none) :
    (decoder.takeFrames frames).finishReason = decoder.finishReason := by
  induction frames generalizing decoder with
  | nil => rfl
  | cons frame frames ih =>
    have rest : ((decoder.takeFrame frame).takeFrames frames).finishReason =
        (decoder.takeFrame frame).finishReason :=
      ih fun other member => silent other (List.mem_cons_of_mem _ member)
    rw [Decoder.takeFrame_reason, silent frame List.mem_cons_self, Option.none_or] at rest
    exact rest

/-- The frames of a message are taken in, and finish. -/
theorem message_told (split : message.Split frames) (few : message.calls.length ≤ 128)
    (told : List.Forall₂ (Frame.Told parse) texts frames) :
    texts.foldlM (Decoder.step parse) {} = .ok (({} : Decoder).takeFrames frames) ∧
      (({} : Decoder).takeFrames frames).finishReason = some message.finishReason := by
  obtain ⟨before, last, after, rfl, reason, silent, behind⟩ := split.reason
  have small : ∀ frame ∈ before ++ last :: after, ∀ piece ∈ frame.pieces, piece.index < 128 :=
    fun frame member piece own => Nat.lt_of_lt_of_le (split.indexes frame member piece own) few
  have quiet : ∀ frame ∈ after, frame.reason = none := by
    intro frame member
    rw [Frame.reason, behind frame member]
    rfl
  have first := List.forall₂_take_append texts before (last :: after) told
  obtain ⟨text, rest, one, later, split'⟩ :=
    List.forall₂_cons_right_iff.mp (List.forall₂_drop_append texts before (last :: after) told)
  have whole : texts = texts.take before.length ++ text :: rest := by
    rw [← split', List.take_append_drop]
  have opened : (({} : Decoder).takeFrames before).finishReason = none :=
    takeFrames_reason silent
  have ran : (texts.take before.length).foldlM (Decoder.step parse) {} =
      .ok (({} : Decoder).takeFrames before) :=
    frames_told first (fun frame member => small frame (List.mem_append_left _ member)) rfl
      (.inl ⟨rfl, silent⟩)
  have live : (({} : Decoder).takeFrames before).done = false :=
    Decoder.takeFrames_done {} before
  have ran' := frame_told one
    (small last (List.mem_append_right _ List.mem_cons_self)) live (.inr opened)
  have closed : rest.foldlM (Decoder.step parse) ((({} : Decoder).takeFrames before).takeFrame last) =
      .ok (((({} : Decoder).takeFrames before).takeFrame last).takeFrames after) :=
    frames_told later
      (fun frame own => small frame (List.mem_append_right _ (List.mem_cons_of_mem _ own)))
      ((Decoder.takeFrame_done _ last).trans live) (.inr behind)
  have joined : ({} : Decoder).takeFrames (before ++ last :: after) =
      ((({} : Decoder).takeFrames before).takeFrame last).takeFrames after := by
    rw [Decoder.takeFrames, List.foldl_append]
    rfl
  rw [joined]
  constructor
  · rw [whole]
    exact foldlM_append_ok.mpr ⟨_, ran, foldlM_cons_ok.mpr ⟨_, ran', closed⟩⟩
  · rw [takeFrames_reason quiet, Decoder.takeFrame_reason, reason]
    rfl

end Frames

/-! ## Calls of a message -/

section Calls

variable {message : Message} {frames : List Frame}

/-- The calls that were collected are those of the message. -/
theorem collected_calls (split : message.Split frames)
    (complete : ∀ call ∈ message.calls, call.Complete) :
    completeCalls 0 (({} : Decoder).takeFrames frames).calls.toList =
      .ok (message.calls.map Call.toJson) := by
  have collected := Decoder.takeFrames_calls {} frames
  generalize ({} : Decoder).takeFrames frames = decoder at collected ⊢
  have given : ∀ index call, message.calls[index]? = some call →
      decoder.calls.getD index {} = call := by
    intro index call found
    obtain ⟨id, name, arguments⟩ := split.calls index call found
    rw [collected, addPieces_getD, extend_all]
    simp [id, name, arguments]
  have keys : decoder.calls.keys = List.range message.calls.length := by
    apply List.Pairwise.eq_of_mem_iff
      (Std.TreeMap.ordered_keys.imp Nat.compare_eq_lt.mp) List.pairwise_lt_range
    intro index
    rw [Std.TreeMap.mem_keys, List.mem_range, collected, addPieces_mem]
    constructor
    · intro held
      obtain ⟨piece, member⟩ := List.exists_mem_of_ne_nil _ (held.resolve_left (by simp))
      obtain ⟨own, same⟩ := List.mem_filter.mp member
      obtain ⟨frame, present, own⟩ := List.mem_flatMap.mp own
      rw [← of_decide_eq_true same]
      exact split.indexes frame present piece own
    · intro small
      have found := List.getElem?_eq_getElem small
      refine .inr fun none => (complete _ (List.getElem_mem small)).id ?_
      have id := (split.calls index _ found).1
      rw [none] at id
      exact id.symm
  have numbered : decoder.calls.toList.map Prod.fst = List.range message.calls.length :=
    Std.TreeMap.map_fst_toList_eq_keys.trans keys
  have length : decoder.calls.toList.length = message.calls.length := by
    rw [← List.length_map Prod.fst, numbered, List.length_range]
  have calls : decoder.calls.toList.map Prod.snd = message.calls := by
    apply List.ext_getElem (by rw [List.length_map, length])
    intro index inside small
    rw [List.length_map] at inside
    have place : decoder.calls.toList[index].1 = index := by
      have same := List.getElem_map Prod.fst (l := decoder.calls.toList) (i := index)
        (h := by rwa [List.length_map])
      rw [← same, List.getElem_of_eq numbered, List.getElem_range]
    have member : (index, decoder.calls.toList[index].2) ∈ decoder.calls.toList := by
      have entry := List.getElem_mem inside
      rwa [← Prod.eta decoder.calls.toList[index], place] at entry
    have found := Std.TreeMap.mem_toList_iff_getElem?_eq_some.mp member
    have own := given index _ (List.getElem?_eq_getElem small)
    rw [Std.TreeMap.getD_eq_getD_getElem?, found] at own
    rw [List.getElem_map]
    exact own
  refine completeCalls_ok.mpr ⟨?_, ?_, ?_⟩
  · rw [numbered, length, List.range_eq_range']
  · intro entry member
    apply complete
    rw [← calls]
    exact List.mem_map_of_mem member
  · rw [← calls, List.map_map]
    rfl

end Calls

/-! ## Agreement -/

section Agreement

variable {parse : Parser} {message : Message} {chunks : List Bytes} {body : Value}

theorem toJson_shown (call : Call) : call.Shown call.toJson where
  id := rfl
  function := ⟨_, rfl, rfl, rfl⟩

/-- The body that the decoder makes says the message. -/
theorem body_shown {decoder : Decoder} (content : decoder.content = message.content)
    (reason : decoder.finishReason = some message.finishReason)
    (usage : decoder.usage = message.usage) :
    message.Shown (decoder.body (message.calls.map Call.toJson)) := by
  have calls : List.Forall₂ Call.Shown message.calls (message.calls.map Call.toJson) := by
    rw [List.forall₂_map_right_iff, List.forall₂_same]
    exact fun call _ => toJson_shown call
  refine ⟨rfl, congrArg some usage, _, [], rfl, ?_, _, rfl, .inl ?_, .inl ⟨_, rfl, calls⟩⟩
  · show some ((decoder.finishReason.map Value.string).getD .null) = _
    rw [reason]
    rfl
  · show some (Value.string decoder.content) = _
    rw [content]

/-- Behind blocks nothing is left open. -/
theorem blockLines_ended {blocks : List (List Sse.Piece)} (some : blocks ≠ []) :
    ∃ lines, Sse.blockLines blocks = lines ++ [""] := by
  obtain ⟨before, last, split⟩ := (List.eq_nil_or_concat blocks).resolve_left some
  refine ⟨Sse.blockLines before ++ last.map Sse.Piece.line, ?_⟩
  rw [split, List.concat_eq_append, Sse.blockLines, List.flatMap_append, List.append_assoc]
  simp [Sse.blockLines]

/-- A message is the same streamed and in one body. -/
theorem Rendering.agrees (rendering : Rendering parse message)
    (few : message.calls.length ≤ 128) (complete : ∀ call ∈ message.calls, call.Complete)
    (received : chunks.flatten = rendering.bytes) (shown : message.Shown body) :
    ∃ decoder value, Decoder.pushes parse {} chunks = .ok decoder ∧
      decoder.finish parse = .ok value ∧
      parseResponse parse value = parseResponse parse body ∧
      parseResponse parse body = message.response parse ∧
      String.join decoder.drafts = message.content := by
  obtain ⟨texts, closing, events, told, closes⟩ := rendering.events
  obtain ⟨ran, reason⟩ := message_told rendering.split few told
  obtain ⟨content, drafts⟩ := Decoder.takeFrames_content {} rendering.frames
  have usage := Decoder.takeFrames_usage {} rendering.frames
  have live := Decoder.takeFrames_done {} rendering.frames
  have collected := collected_calls rendering.split complete
  rw [rendering.split.usage] at usage
  rw [rendering.split.content] at content drafts
  generalize ({} : Decoder).takeFrames rendering.frames = taken at *
  have closed : taken.step parse closing = .ok { taken with done := true } := by
    refine Decoder.step_ok.mpr ⟨live, ?_⟩
    rw [Decoder.event, if_pos closes, if_neg (by simp [reason])]
  have read := Sse.events_blocks rendering.fits
  rw [events] at read
  obtain ⟨decoder, lines, ended⟩ : ∃ decoder,
      (Sse.blockLines rendering.blocks).foldlM (Decoder.line parse) {} = .ok decoder ∧
        decoder.dispatch parse = .ok { taken with done := true } := by
    apply Decoder.events_lines (fun _ => rfl)
    · show ∀ event ∈ Sse.events "" (Sse.blockLines rendering.blocks), _
      rw [read, ← events]
      exact rendering.eventSizes
    · show (Sse.events "" (Sse.blockLines rendering.blocks)).foldlM _ _ = _
      rw [read]
      exact foldlM_append_ok.mpr ⟨_, ran, foldlM_singleton_ok.mpr closed⟩
  have clear : decoder.data = "" := by
    have some : rendering.blocks ≠ [] := by
      intro none
      rw [none] at events
      cases texts <;> cases events
    obtain ⟨before, split⟩ := blockLines_ended some
    rw [split] at lines
    obtain ⟨next, _, last⟩ := foldlM_append_ok.mp lines
    have last := foldlM_singleton_ok.mp last
    exact (Decoder.dispatch_pending last).2
  have same : decoder = { taken with done := true } := by
    rw [Decoder.dispatch, if_pos clear] at ended
    exact Except.ok.inj ended
  have pushed : Decoder.pushes parse {} chunks = .ok decoder := by
    rw [Decoder.pushes_flatten, received]
    refine Decoder.push_sents rfl ?_ rendering.lineSizes (by rw [rendering.lines]; exact lines)
    intro line member
    apply Sse.blockLines_clean rendering.fits
    rw [← rendering.lines]
    exact List.mem_map_of_mem member
  have fresh : decoder.pending = [] := Decoder.lines_pending lines
  have finished : decoder.finish parse = .ok (decoder.body (message.calls.map Call.toJson)) := by
    have completed : decoder.complete = .ok (decoder.body (message.calls.map Call.toJson)) := by
      rw [same, Decoder.complete, if_pos rfl]
      simp only [collected]
      rfl
    rw [Decoder.finish, Decoder.lastLine, if_pos fresh]
    have dispatched : decoder.dispatch parse = .ok decoder := by
      rw [Decoder.dispatch, if_pos clear]
    exact bind_ok.mpr ⟨decoder, rfl, bind_ok.mpr ⟨decoder, dispatched, completed⟩⟩
  have said : message.Shown (decoder.body (message.calls.map Call.toJson)) := by
    rw [same]
    exact body_shown (content.trans (String.empty_append)) reason usage
  refine ⟨decoder, _, pushed, finished, ?_, parseResponse_shown shown, ?_⟩
  · rw [parseResponse_shown said, parseResponse_shown shown]
  · rw [same]
    simpa using drafts

end Agreement

namespace Sample

def spoken : Message where
  content := "ok"
  calls := [⟨"a", "read", "\x7b\x7d"⟩]
  finishReason := "tool_calls"
  usage := .object [("prompt_tokens", .number (.posInt 4)),
    ("completion_tokens", .number (.posInt 7))]

/-- The members of a frame with one choice. -/
def choiceFrame (choice : List (String × Value)) (more : List (String × Value)) :
    List (String × Value) :=
  ("choices", .array [.object (("index", .number (.posInt 0)) :: choice)]) :: more

def firstFrame : List (String × Value) := choiceFrame [("delta", .object [
  ("content", .string "ok"), ("tool_calls", .array [.object [
    ("index", .number (.posInt 0)), ("id", .string "a"),
    ("function", .object [("name", .string "read"), ("arguments", .string "\x7b")])]])])] []

def secondFrame : List (String × Value) := choiceFrame [("delta", .object [
  ("tool_calls", .array [.object [
    ("index", .number (.posInt 0)), ("function", .object [("arguments", .string "\x7d")])]])]),
  ("finish_reason", .string "tool_calls")] [("usage", spoken.usage)]

/-- The event of an object. -/
def told (members : List (String × Value)) : String := (Value.object members).text

/-- What is read of compact texts. -/
def reading : Parser := fun text =>
  match Json.parse (trimEnd '\n' text) with
  | some value => .ok value
  | none => .error "expected value"

def spokenFrames : List Frame := [
  ⟨some ⟨some "ok", [⟨0, some "a", some "read", some "\x7b"⟩], none⟩, none⟩,
  ⟨some ⟨none, [⟨0, none, none, some "\x7d"⟩], some "tool_calls"⟩, some spoken.usage⟩]

def spokenBlocks : List (List Sse.Piece) := [[.other ": keepalive"],
  [.other "event: delta", .data true (told firstFrame)], [.data false (told secondFrame)],
  [.data true "[DONE]"]]

theorem spoken_split : spoken.Split spokenFrames where
  content := by decide
  indexes := by decide
  calls := by
    intro index call found
    cases index with
    | zero =>
      cases found
      decide
    | succ index => cases found
  reason := ⟨[_], _, [], rfl, rfl, by decide, by decide⟩
  usage := rfl

section Told

variable {members : List (String × Value)}

theorem told_head : (told members).toList.head? = some '\x7b' := (Value.braces members).1

theorem told_clean (start : String) (clean : '\n' ∉ start.toList) :
    Sse.Clean (start ++ told members) where
  oneLine := by
    rw [String.toList_append, List.mem_append, not_or]
    exact ⟨clean, Value.newline_not_mem_text _⟩
  ending := by
    rw [String.toList_append, List.getLast?_append, told, (Value.braces members).2]
    simp

theorem told_frame : trim Core.isWhitespace (told members ++ "\n") ≠ "[DONE]" := by
  intro closes
  obtain ⟨before, after, split, blank, _⟩ :=
    Text.trim_split Core.isWhitespace (told members ++ "\n")
  have heads := congrArg (fun text => text.toList.head?) split
  rw [closes] at heads
  simp only [String.toList_append, List.head?_append, told_head] at heads
  cases chars : before.toList with
  | nil =>
    rw [chars] at heads
    cases heads
  | cons char chars' =>
    rw [chars, List.all_cons, Bool.and_eq_true] at blank
    rw [chars] at heads
    cases heads
    exact absurd blank.1 (by decide)

theorem reading_told (plain : (Value.object members).Plain) :
    reading (told members ++ "\n") = .ok (.object members) := by
  have bare : trimEnd '\n' (told members) = told members := by
    apply Text.trimEnd_of_getLast?
    rw [told, (Value.braces members).2]
    decide
  have trimmed : trimEnd '\n' (told members ++ "\n") = told members :=
    (Text.trimEnd_concat '\n' (told members)).trans bare
  rw [reading, trimmed, told, Json.parse_text plain]

end Told

theorem spoken_told : List.Forall₂ (Frame.Told reading)
    [told firstFrame ++ "\n", told secondFrame ++ "\n"] spokenFrames := by
  have first : Frame.Told reading (told firstFrame ++ "\n") spokenFrames[0] := by
    refine ⟨told_frame, _, reading_told ?_, rfl, rfl, _, rfl, .cons ?_ .nil⟩
    · simp [firstFrame, choiceFrame, Value.Plain, Value.PlainMembers, Value.PlainItems]
    · refine ⟨rfl, .inr ⟨_, rfl, rfl, rfl, .inr ⟨_, rfl, .cons ?_ .nil⟩⟩, rfl⟩
      exact ⟨rfl, rfl, .inl rfl, .inr ⟨_, rfl, rfl, rfl⟩⟩
  have second : Frame.Told reading (told secondFrame ++ "\n") spokenFrames[1] := by
    refine ⟨told_frame, _, reading_told ?_, rfl, rfl, _, rfl, .cons ?_ .nil⟩
    · simp [secondFrame, spoken, choiceFrame, Value.Plain, Value.PlainMembers, Value.PlainItems]
    · refine ⟨rfl, .inr ⟨_, rfl, rfl, rfl, .inr ⟨_, rfl, .cons ?_ .nil⟩⟩, rfl⟩
      exact ⟨rfl, rfl, .inl rfl, .inr ⟨_, rfl, rfl, rfl⟩⟩
  exact .cons first (.cons second .nil)

theorem spoken_fits : ∀ block ∈ spokenBlocks, ∀ piece ∈ block, piece.Fits := by
  have comment : (Sse.Piece.other ": keepalive").Fits :=
    ⟨⟨by decide, by decide⟩, by decide, by decide⟩
  have field : (Sse.Piece.other "event: delta").Fits :=
    ⟨⟨by decide, by decide⟩, by decide, by decide⟩
  have first : (Sse.Piece.data true (told firstFrame)).Fits := by
    refine ⟨?_, trivial⟩
    rw [Sse.Piece.line, ← String.append_assoc]
    exact told_clean _ (by decide)
  have second : (Sse.Piece.data false (told secondFrame)).Fits := by
    refine ⟨told_clean "data:" (by decide), ?_⟩
    show Text.stripPrefix " " (told secondFrame) = none
    cases stripped : Text.stripPrefix " " (told secondFrame) with
    | none => rfl
    | some rest =>
      have head := @told_head secondFrame
      rw [Text.stripPrefix_some.mp stripped] at head
      simp at head
  have done : (Sse.Piece.data true "[DONE]").Fits := ⟨⟨by decide, by decide⟩, trivial⟩
  simp only [spokenBlocks, List.forall_mem_cons, List.not_mem_nil, false_implies, implies_true,
    and_true]
  exact ⟨comment, ⟨field, first⟩, second, done⟩

/-- All lines end in `\r\n`. -/
def spokenSent : List Sse.Sent := (Sse.blockLines spokenBlocks).map fun line => ⟨line, true⟩

theorem spoken_events : ∃ texts closing, Sse.blockEvents spokenBlocks = texts ++ [closing] ∧
    List.Forall₂ (Frame.Told reading) texts spokenFrames ∧
    trim Core.isWhitespace closing = "[DONE]" := by
  refine ⟨_, "[DONE]\n", ?_, spoken_told, by decide⟩
  simp [Sse.blockEvents, spokenBlocks, Sse.Piece.text, Sse.flush]

theorem spoken_lines : spokenSent.map Sse.Sent.line = Sse.blockLines spokenBlocks := by
  rw [spokenSent, List.map_map]
  exact List.map_id _

theorem spoken_lineSizes : ∀ line ∈ spokenSent, line.body.length ≤ maxFrame := by decide +kernel

theorem spoken_eventSizes : ∀ event ∈ Sse.blockEvents spokenBlocks,
    event.utf8ByteSize ≤ maxFrame := by decide +kernel

def rendering : Rendering reading spoken where
  frames := spokenFrames
  split := spoken_split
  blocks := spokenBlocks
  fits := spoken_fits
  events := spoken_events
  sent := spokenSent
  lines := spoken_lines
  lineSizes := spoken_lineSizes
  eventSizes := spoken_eventSizes

/-- The message in one body. -/
def reply : Decoder where
  content := "ok"
  finishReason := some "tool_calls"
  usage := spoken.usage

end Sample

/-- The bytes are received in two chunks. -/
theorem Rendering.agrees_sample :
    ∃ decoder value, Decoder.pushes Sample.reading {}
        [Sample.rendering.bytes.take 9, Sample.rendering.bytes.drop 9] = .ok decoder ∧
      decoder.finish Sample.reading = .ok value ∧
      parseResponse Sample.reading value =
        .ok ⟨"ok", [⟨⟨"a"⟩, "read", .object []⟩], .toolUse, ⟨4, 7⟩⟩ ∧
      String.join decoder.drafts = "ok" := by
  have received : [Sample.rendering.bytes.take 9, Sample.rendering.bytes.drop 9].flatten =
      Sample.rendering.bytes := by simp
  have complete : ∀ call ∈ Sample.spoken.calls, call.Complete := by
    intro call member
    cases List.mem_singleton.mp member
    exact ⟨by decide, by decide, by decide⟩
  have shown : Sample.spoken.Shown (Sample.reply.body (Sample.spoken.calls.map Call.toJson)) :=
    body_shown rfl rfl rfl
  obtain ⟨decoder, value, pushed, finished, same, parsed, drafts⟩ :=
    Rendering.agrees Sample.rendering (by decide) complete received shown
  refine ⟨decoder, value, pushed, finished, ?_, drafts⟩
  rw [same, parsed]
  rfl

end Nausicaa.Openai
