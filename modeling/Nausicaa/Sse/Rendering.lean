import Nausicaa.Sse.Events
import Nausicaa.Text.Utf8

/-! # Rendering events

What a server may send for its events: blocks of data lines, with or without a space behind
the colon, and of comments and other fields, each closed by an empty line; every line ends in
`\n` or in `\r\n`.  The events of the blocks are read back (`events_blocks`). -/

namespace Nausicaa.Sse

open Text (stripPrefix trimEnd)

/-- A line of a block. -/
inductive Piece where
  | data (space : Bool) (text : String)
  | other (line : String)

namespace Piece

def line : Piece → String
  | .data true text => "data:" ++ (" " ++ text)
  | .data false text => "data:" ++ text
  | .other line => line

/-- What the line adds to the event. -/
def text : Piece → String
  | .data _ text => text ++ "\n"
  | .other _ => ""

end Piece

/-- A text that stands on one line. -/
structure Clean (line : String) : Prop where
  oneLine : '\n' ∉ line.toList
  ending : line.toList.getLast? ≠ some '\r'

/-- The line is not taken for another one. -/
def Piece.Distinct : Piece → Prop
  | .data true _ => True
  | .data false text => stripPrefix " " text = none
  | .other line => line ≠ "" ∧ stripPrefix "data:" line = none

/-- A piece that is read as what it is. -/
structure Piece.Fits (piece : Piece) : Prop where
  clean : Clean piece.line
  distinct : piece.Distinct

/-- The lines of blocks. -/
def blockLines (blocks : List (List Piece)) : List String :=
  blocks.flatMap fun block => block.map Piece.line ++ [""]

/-- The events of blocks; a block without data has none. -/
def blockEvents (blocks : List (List Piece)) : List String :=
  blocks.flatMap fun block => flush (String.join (block.map Piece.text))

section Blocks

variable {block : List Piece} {blocks : List (List Piece)}

theorem events_block (buffer : String) (fits : ∀ piece ∈ block, piece.Fits) :
    events buffer (block.map Piece.line) = flush (buffer ++ String.join (block.map Piece.text)) := by
  induction block generalizing buffer with
  | nil => simp [events]
  | cons piece block ih =>
    have others := fun other member => fits other (List.mem_cons_of_mem _ member)
    have own := (fits piece List.mem_cons_self).distinct
    rw [List.map_cons, List.map_cons, String.join_cons, ← String.append_assoc]
    cases piece with
    | data space text =>
      have shown : dataOf (Piece.data space text).line = some text := by
        cases space with
        | true => simp [dataOf, Piece.line]
        | false =>
          have own : stripPrefix " " text = none := own
          simp [dataOf, Piece.line, own]
      rw [events_data shown, ih _ others, Piece.text, @String.append_assoc buffer]
    | other line =>
      have own : line ≠ "" ∧ stripPrefix "data:" line = none := own
      have shown : dataOf (Piece.other line).line = none := by
        simp [dataOf, Piece.line, own.2]
      rw [events_other (show (Piece.other line).line ≠ "" from own.1) shown, ih _ others, Piece.text, String.append_empty]

/-- The events of blocks are read back. -/
theorem events_blocks (fits : ∀ block ∈ blocks, ∀ piece ∈ block, piece.Fits) :
    events "" (blockLines blocks) = blockEvents blocks := by
  induction blocks with
  | nil => rfl
  | cons block blocks ih =>
    have others := fun other member => fits other (List.mem_cons_of_mem _ member)
    have own := events_block "" (fits block List.mem_cons_self)
    rw [String.empty_append] at own
    rw [blockLines, List.flatMap_cons, List.append_assoc, List.singleton_append, events_append,
      own, blockEvents, List.flatMap_cons]
    exact congrArg _ (ih others)

theorem blockLines_clean (fits : ∀ block ∈ blocks, ∀ piece ∈ block, piece.Fits) :
    ∀ line ∈ blockLines blocks, Clean line := by
  intro line member
  obtain ⟨block, present, member⟩ := List.mem_flatMap.mp member
  rw [List.mem_append, List.mem_singleton] at member
  obtain member | rfl := member
  · obtain ⟨piece, own, rfl⟩ := List.mem_map.mp member
    exact (fits block present piece own).clean
  · exact ⟨by simp, by simp⟩

end Blocks

/-! ## Bytes -/

/-- A line as it is sent. -/
structure Sent where
  line : String
  crlf : Bool

/-- The bytes before `\n`. -/
def Sent.body (sent : Sent) : List UInt8 :=
  Text.encode sent.line ++ if sent.crlf then [0x0D] else []

def Sent.bytes (sent : Sent) : List UInt8 := sent.body ++ [0x0A]

theorem Sent.body_clean {sent : Sent} (clean : Clean sent.line) : (0x0A : UInt8) ∉ sent.body := by
  intro member
  rw [body, List.mem_append] at member
  obtain member | member := member
  · have member : UInt8.ofNat '\n'.toNat ∈ Text.encode sent.line := member
    exact clean.oneLine (Text.mem_encode (by decide) member)
  · split at member
    next => simp at member
    next => simp at member

/-- The line is decoded from its bytes. -/
theorem Sent.body_decode {sent : Sent} (clean : Clean sent.line) :
    (Text.decode sent.body).map (trimEnd '\r') = some sent.line := by
  have plain := Text.trimEnd_of_getLast? clean.ending
  rw [body]
  split
  next =>
    have return' : Text.encode "\r" = [0x0D] := by decide
    rw [← return', ← Text.encode_append, Text.decode_encode, Option.map_some]
    apply congrArg
    exact (Text.trimEnd_concat '\r' sent.line).trans plain
  next => rw [List.append_nil, Text.decode_encode, Option.map_some, plain]

end Nausicaa.Sse
