import Nausicaa.Openai.Frames

/-! # Deltas

Streaming frames as what they add to a message.  The decoder takes in a frame that says
something just this (`frame_shown`), so that behind the frames it holds what they say
together (`takeFrames_content`, `takeFrames_calls`). -/

namespace Nausicaa.Openai

open Json (Value)
open Json.Value (asArray asNat asString)
open Std (TreeMap)

/-- A piece of a call. -/
structure CallDelta where
  index : Nat
  id : Option String
  name : Option String
  arguments : Option String

structure ChoiceDelta where
  content : Option String
  calls : List CallDelta
  finishReason : Option String

structure Frame where
  choice : Option ChoiceDelta
  usage : Option Value

/-- A JSON value that says a piece of a call. -/
structure CallDelta.Shown (delta : CallDelta) (value : Value) : Prop where
  index : value.get "index" = some (.number (.posInt delta.index))
  id : value.present "id" = delta.id.map Value.string
  type : value.present "type" = none ∨ value.present "type" = some (.string "function")
  function : (value.get "function" = none ∧ delta.name = none ∧ delta.arguments = none) ∨
    ∃ function, value.get "function" = some function ∧
      function.present "name" = delta.name.map Value.string ∧
      function.present "arguments" = delta.arguments.map Value.string

/-- A JSON value that says the delta of a choice. -/
structure ChoiceDelta.Said (delta : ChoiceDelta) (value : Value) : Prop where
  content : value.present "content" = delta.content.map Value.string
  functionCall : value.get "function_call" = none
  calls : (value.get "tool_calls" = none ∧ delta.calls = []) ∨
    ∃ values, value.get "tool_calls" = some (.array values) ∧
      List.Forall₂ CallDelta.Shown delta.calls values

structure ChoiceDelta.Shown (delta : ChoiceDelta) (value : Value) : Prop where
  index : value.get "index" = some (.number (.posInt 0))
  said : (value.get "delta" = none ∧ delta.content = none ∧ delta.calls = []) ∨
    ∃ said, value.get "delta" = some said ∧ delta.Said said
  reason : value.present "finish_reason" = delta.finishReason.map Value.string

/-- A JSON value that says a frame; it may hold anything else. -/
structure Frame.Shown (frame : Frame) (value : Value) : Prop where
  error : value.get "error" = none
  usage : value.present "usage" = frame.usage
  choices : ∃ values, value.get "choices" = some (.array values) ∧
    List.Forall₂ ChoiceDelta.Shown frame.choice.toList values

/-! ## What a decoder makes of them -/

/-- The call with one piece more. -/
def Call.extend (call : Call) (piece : CallDelta) : Call where
  id := call.id ++ piece.id.getD ""
  name := call.name ++ piece.name.getD ""
  arguments := call.arguments ++ piece.arguments.getD ""

def addPiece (calls : TreeMap Nat Call) (piece : CallDelta) : TreeMap Nat Call :=
  calls.insert piece.index ((calls.getD piece.index {}).extend piece)

namespace Decoder

def takeChoice (decoder : Decoder) (delta : ChoiceDelta) : Decoder :=
  { decoder.draft (delta.content.getD "") with
    calls := delta.calls.foldl addPiece decoder.calls
    finishReason := delta.finishReason.or decoder.finishReason }

def takeFrame (decoder : Decoder) (frame : Frame) : Decoder :=
  let decoder := { decoder with usage := frame.usage.getD decoder.usage }
  frame.choice.elim decoder decoder.takeChoice

def takeFrames (decoder : Decoder) (frames : List Frame) : Decoder := frames.foldl takeFrame decoder

end Decoder

section Shown

variable {decoder : Decoder} {value : Value}

theorem fragment_some {key : String} {piece : Option String} (message : String)
    (shown : value.present key = piece.map Value.string) :
    fragment value key message = .ok (piece.getD "") := by
  rw [fragment, shown]
  cases piece with
  | none => rfl
  | some text => rfl

theorem functionDelta_shown {delta : CallDelta} (shown : delta.Shown value) :
    functionDelta value = .ok (delta.name.getD "", delta.arguments.getD "") := by
  rw [functionDelta]
  obtain ⟨none, name, arguments⟩ | ⟨function, found, name, arguments⟩ := shown.function
  · rw [none, name, arguments]
    rfl
  · simp only [found, fragment_some _ name, fragment_some _ arguments]
    rfl

/-- What a piece of a call adds. -/
theorem call_shown {delta : CallDelta} (shown : delta.Shown value) (small : delta.index < 128) :
    decoder.call value = .ok { decoder with calls := addPiece decoder.calls delta } := by
  have index : toolIndex value = .ok delta.index := by
    simp [toolIndex, shown.index, asNat, Option.filter, small]
  have checked : checkType value = .ok () := by
    rw [checkType]
    obtain none | function := shown.type
    · simp [none]
    · simp [function, asString]
  simp only [Decoder.call, index, fragment_some _ shown.id, checked, functionDelta_shown shown]
  rfl

theorem calls_shown {deltas : List CallDelta} {values : List Value}
    (shown : List.Forall₂ CallDelta.Shown deltas values)
    (small : ∀ delta ∈ deltas, delta.index < 128) :
    values.foldlM Decoder.call decoder =
      .ok { decoder with calls := deltas.foldl addPiece decoder.calls } := by
  induction shown generalizing decoder with
  | nil => rfl
  | cons first _ ih =>
    rw [List.foldlM_cons, call_shown first (small _ List.mem_cons_self), List.foldl_cons]
    exact ih fun delta member => small delta (List.mem_cons_of_mem _ member)

theorem draft_calls (content : String) : (decoder.draft content).calls = decoder.calls := by
  rw [Decoder.draft]
  split <;> rfl

theorem draft_reason (content : String) :
    (decoder.draft content).finishReason = decoder.finishReason := by
  rw [Decoder.draft]
  split <;> rfl

/-- What the delta of a choice adds. -/
theorem delta_said {delta : ChoiceDelta} (said : delta.Said value)
    (small : ∀ piece ∈ delta.calls, piece.index < 128) :
    decoder.delta value = .ok { decoder.draft (delta.content.getD "") with
      calls := delta.calls.foldl addPiece decoder.calls } := by
  have calls : (decoder.draft (delta.content.getD "")).calls = decoder.calls := draft_calls _
  simp only [Decoder.delta, fragment_some _ said.content, said.functionCall]
  obtain ⟨none, silent⟩ | ⟨values, found, shown⟩ := said.calls
  · rw [none, silent, List.foldl_nil, ← calls]
    rfl
  · rw [found, ← calls]
    exact calls_shown shown small

theorem close_shown {delta : ChoiceDelta} (shown : delta.Shown value) :
    decoder.close value =
      .ok { decoder with finishReason := delta.finishReason.or decoder.finishReason } := by
  rw [Decoder.close, shown.reason]
  cases delta.finishReason with
  | none => rfl
  | some reason => rfl

theorem choice_shown {delta : ChoiceDelta} (shown : delta.Shown value)
    (small : ∀ piece ∈ delta.calls, piece.index < 128) (live : decoder.finishReason = none) :
    decoder.choice value = .ok (decoder.takeChoice delta) := by
  have index : (value.get "index").bind asNat = some 0 := by
    rw [shown.index]
    rfl
  rw [Decoder.choice, index, if_neg (by simp), if_neg (by simp [live])]
  obtain ⟨none, content, calls⟩ | ⟨said, found, told⟩ := shown.said
  · rw [none, Option.elim_none]
    show decoder.close value = .ok (decoder.takeChoice delta)
    rw [close_shown shown, Decoder.takeChoice, content, calls]
    rfl
  · rw [found, Option.elim_some, delta_said told small]
    show Decoder.close _ value = .ok (decoder.takeChoice delta)
    rw [close_shown shown, Decoder.takeChoice]
    simp only [draft_reason]

/-- What a frame adds. -/
theorem frame_shown {frame : Frame} (shown : frame.Shown value)
    (small : ∀ delta ∈ frame.choice, ∀ piece ∈ delta.calls, piece.index < 128)
    (live : frame.choice = none ∨ decoder.finishReason = none) :
    decoder.frame value = .ok (decoder.takeFrame frame) := by
  obtain ⟨values, found, each⟩ := shown.choices
  have usage := shown.usage
  rw [Decoder.frame, shown.error]
  simp only [found, Option.bind_some, asArray, usage]
  cases choice : frame.choice with
  | none =>
    rw [choice] at each
    cases each
    rw [Decoder.takeFrame, choice]
    rfl
  | some delta =>
    rw [choice] at each
    cases each with
    | cons first rest =>
      cases rest
      have live := live.resolve_left (by simp [choice])
      have one := @choice_shown { decoder with usage := frame.usage.getD decoder.usage } _ delta
        first (small delta choice) live
      rw [if_neg (by simp), List.foldlM_cons, one, Decoder.takeFrame, choice]
      rfl

end Shown

/-! ## What frames say together -/

namespace Frame

def content (frame : Frame) : String := (frame.choice.bind ChoiceDelta.content).getD ""

def pieces (frame : Frame) : List CallDelta := (frame.choice.map ChoiceDelta.calls).getD []

def reason (frame : Frame) : Option String := frame.choice.bind ChoiceDelta.finishReason

end Frame

namespace Decoder

variable (decoder : Decoder) (frame : Frame) (frames : List Frame)

theorem takeFrame_content : (decoder.takeFrame frame).content = decoder.content ++ frame.content ∧
    String.join (decoder.takeFrame frame).drafts = String.join decoder.drafts ++ frame.content := by
  rw [takeFrame, Frame.content]
  cases frame.choice with
  | none => simp
  | some delta =>
    simp only [Option.elim_some, takeChoice, draft, Option.bind_some]
    split
    next empty => simp [empty]
    next => simp

theorem takeFrame_calls :
    (decoder.takeFrame frame).calls = frame.pieces.foldl addPiece decoder.calls := by
  rw [takeFrame, Frame.pieces]
  cases frame.choice with
  | none => rfl
  | some delta => rfl

theorem takeFrame_reason :
    (decoder.takeFrame frame).finishReason = frame.reason.or decoder.finishReason := by
  rw [takeFrame, Frame.reason]
  cases frame.choice with
  | none => rfl
  | some delta => rfl

theorem takeFrame_usage :
    (decoder.takeFrame frame).usage = frame.usage.getD decoder.usage := by
  rw [takeFrame]
  cases frame.choice with
  | none => rfl
  | some delta =>
    simp only [Option.elim_some, takeChoice, draft]
    split <;> rfl

theorem takeFrame_done : (decoder.takeFrame frame).done = decoder.done := by
  rw [takeFrame]
  cases frame.choice with
  | none => rfl
  | some delta =>
    simp only [Option.elim_some, takeChoice, draft]
    split <;> rfl

theorem takeFrames_content : (decoder.takeFrames frames).content =
      decoder.content ++ String.join (frames.map Frame.content) ∧
    String.join (decoder.takeFrames frames).drafts =
      String.join decoder.drafts ++ String.join (frames.map Frame.content) := by
  induction frames generalizing decoder with
  | nil => simp [takeFrames]
  | cons frame frames ih =>
    obtain ⟨content, drafts⟩ := decoder.takeFrame_content frame
    obtain ⟨content', drafts'⟩ := ih (decoder.takeFrame frame)
    rw [takeFrames] at content' drafts' ⊢
    rw [List.foldl_cons, List.map_cons, String.join_cons, content', drafts', content, drafts,
      String.append_assoc, String.append_assoc]
    exact ⟨rfl, rfl⟩

theorem takeFrames_calls : (decoder.takeFrames frames).calls =
    (frames.flatMap Frame.pieces).foldl addPiece decoder.calls := by
  induction frames generalizing decoder with
  | nil => rfl
  | cons frame frames ih =>
    have rest := ih (decoder.takeFrame frame)
    rw [takeFrames] at rest ⊢
    rw [List.foldl_cons, rest, takeFrame_calls, List.flatMap_cons, List.foldl_append]

theorem takeFrames_usage : (decoder.takeFrames frames).usage =
    (frames.filterMap Frame.usage).getLast?.getD decoder.usage := by
  induction frames generalizing decoder with
  | nil => rfl
  | cons frame frames ih =>
    have rest := ih (decoder.takeFrame frame)
    rw [takeFrames] at rest ⊢
    rw [List.foldl_cons, rest, takeFrame_usage]
    cases given : frame.usage with
    | none => simp [given]
    | some usage => simp [given, List.getLast?_cons]

theorem takeFrames_done : (decoder.takeFrames frames).done = decoder.done := by
  induction frames generalizing decoder with
  | nil => rfl
  | cons frame frames ih => exact (ih _).trans (decoder.takeFrame_done frame)

end Decoder

/-! ## Calls -/

section Calls

variable {calls : TreeMap Nat Call} {pieces : List CallDelta} {index : Nat}

/-- The pieces of one call. -/
def piecesAt (index : Nat) (pieces : List CallDelta) : List CallDelta :=
  pieces.filter fun piece => piece.index = index

theorem addPieces_getD : (pieces.foldl addPiece calls).getD index {} =
    (piecesAt index pieces).foldl Call.extend (calls.getD index {}) := by
  induction pieces generalizing calls with
  | nil => rfl
  | cons piece pieces ih =>
    rw [List.foldl_cons, ih, addPiece, TreeMap.getD_insert, piecesAt, piecesAt, List.filter_cons]
    by_cases same : piece.index = index
    · simp [same]
    · simp [same]

theorem addPieces_mem : index ∈ pieces.foldl addPiece calls ↔
    index ∈ calls ∨ piecesAt index pieces ≠ [] := by
  induction pieces generalizing calls with
  | nil => simp [piecesAt]
  | cons piece pieces ih =>
    rw [List.foldl_cons, ih, addPiece, TreeMap.mem_insert, piecesAt, piecesAt, List.filter_cons]
    by_cases same : piece.index = index
    · simp [same]
    · simp [same]

theorem extend_all (call : Call) : pieces.foldl Call.extend call =
    ⟨call.id ++ String.join (pieces.map fun piece => piece.id.getD ""),
      call.name ++ String.join (pieces.map fun piece => piece.name.getD ""),
      call.arguments ++ String.join (pieces.map fun piece => piece.arguments.getD "")⟩ := by
  induction pieces generalizing call with
  | nil => simp
  | cons piece pieces ih =>
    rw [List.foldl_cons, ih, Call.extend]
    simp only [List.map_cons, String.join_cons, String.append_assoc]

end Calls

end Nausicaa.Openai
