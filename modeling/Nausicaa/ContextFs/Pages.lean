import Nausicaa.ContextFs.Retaining
import Nausicaa.Text.Paging

/-! # Reading a snapshot page by page

A page ends where a character ends, and four bytes hold one, so a reader that goes on at
`next_offset` until `eof` gets the whole text, whatever the limits of its pages (`readAll_text`). -/

namespace Nausicaa.ContextFs

open Core (ContextError ThreadId)
open Json (Value)
open Text (encode)

section Pages

variable {newId : Disk → String} {disk : Disk} {thread : ThreadId} {id : String}
variable {archive : OutputArchive} {bytes : Bytes} {offset limit : Nat}

theorem readPage_host (found : disk.snapshot thread id = some bytes)
    (fits : bytes.length ≤ archive.maxOutputBytes) (inside : offset ≤ bytes.length)
    (bounded : 4 ≤ limit ∧ limit ≤ 4096) :
    host newId (archive.readPage thread id offset limit) disk =
      (some (OutputArchive.page id offset bytes.length ((bytes.drop offset).take limit)), disk) := by
  obtain ⟨path, inode, named, housed, file, rfl⟩ := snapshot_iff.mp found
  have length : disk.serve (.length inode) = (some (.ok (disk.contents inode).length), disk) := rfl
  have read : disk.serve (.readAt inode offset limit) =
      (some (.ok (((disk.contents inode).drop offset).take limit)), disk) := rfl
  rw [OutputArchive.readPage, host_bind _ (host_ensure _ bounded),
    host_bind _ (openSnapshot_host named housed file fits), host_bind _ (host_perform length),
    host_bind _ (host_ensure _ inside), host_bind _ (host_perform read)]
  exact host_ofExcept _

/-- The page behind a part of a text shows the next characters, at least one if there is one. -/
theorem page_text (id read rest : String) (bounded : 4 ≤ limit) : ∃ before after,
    rest = before ++ after ∧ (rest ≠ "" → before ≠ "") ∧
    OutputArchive.page id (encode read).length (encode (read ++ rest)).length
      (((encode (read ++ rest)).drop (encode read).length).take limit) =
      .ok (OutputArchive.pageValue id before (encode (read ++ before)).length
        (encode (read ++ rest)).length) ∧
    Text.pageAt (read ++ rest) limit (encode read).length =
      some ⟨before, (encode (read ++ before)).length,
        (encode (read ++ before)).length = (encode (read ++ rest)).length⟩ := by
  obtain ⟨before, after, split, _, progress, shown, begins, decoded⟩ :=
    Text.pageAt_cut read rest limit
  refine ⟨before, after, split, progress bounded, ?_, shown⟩
  have valid : OutputArchive.validBytes (encode read).length (encode (read ++ rest)).length
      ((encode rest).take limit) = .ok (encode before).length := by
    rw [OutputArchive.validBytes]
    obtain whole | ⟨cut, short⟩ := decoded
    · rw [whole]
    · rw [cut, Text.encode_append, List.length_append]
      apply if_pos
      refine ⟨rfl, ?_⟩
      rw [List.length_take]
      omega
  have whole : ((encode rest).take limit).take (encode before).length = encode before :=
    (List.prefix_iff_eq_take.mp begins).symm
  have tail : (encode (read ++ rest)).drop (encode read).length = encode rest := by
    rw [Text.encode_append, List.drop_left]
  rw [tail, OutputArchive.page, valid]
  dsimp only [bind, Except.bind]
  rw [whole, Text.fromUtf8_encode, Text.encode_append read before, List.length_append]

/-- A page as a reader takes it: its text, where the next one starts, and whether it is the
last. -/
def takePage (value : Value) : Option (String × Nat × Bool) :=
  match (value.get "text").bind Value.asString, (value.get "next_offset").bind Value.asNat,
    value.get "eof" with
  | some text, some next, some (.bool eof) => some (text, next, eof)
  | _, _, _ => none

/-- A reader that goes on until the last page, each with its own limit. -/
def readAll (newId : Disk → String) (disk : Disk) (archive : OutputArchive) (thread : ThreadId)
    (id : String) (limits : Nat → Nat) : (fuel number offset : Nat) → Option String
  | 0, _, _ => none
  | fuel + 1, number, offset =>
    match (host newId (archive.readPage thread id offset (limits number)) disk).1 with
    | some (.ok value) =>
      match takePage value with
      | some (text, _, true) => some text
      | some (text, next, false) =>
        (readAll newId disk archive thread id limits fuel (number + 1) next).map (text ++ ·)
      | none => none
    | _ => none

theorem takePage_pageValue (text : String) (next total : Nat) :
    takePage (OutputArchive.pageValue id text next total) = some (text, next, decide (next = total)) := by
  simp [takePage, OutputArchive.pageValue, Value.get, Json.valuesAt, Value.asString, Value.asNat]

/-- From any boundary on the rest of the text is read. -/
theorem readAll_rest (limits : Nat → Nat) (bounded : ∀ number, 4 ≤ limits number ∧
    limits number ≤ 4096) (number : Nat) (read rest : String)
    (found : disk.snapshot thread id = some (encode (read ++ rest)))
    (fits : (encode (read ++ rest)).length ≤ archive.maxOutputBytes) {fuel : Nat}
    (enough : (encode rest).length < fuel) :
    readAll newId disk archive thread id limits fuel number (encode read).length = some rest := by
  induction fuel generalizing number read rest with
  | zero => cases enough
  | succ fuel ih =>
    have inside : (encode read).length ≤ (encode (read ++ rest)).length := by
      rw [Text.encode_append, List.length_append]
      exact Nat.le_add_right _ _
    obtain ⟨before, after, rfl, progress, made, _⟩ :=
      page_text id read rest (bounded number).1
    rw [readAll, readPage_host found fits inside (bounded number), made]
    simp only [takePage_pageValue]
    have parts : (encode (read ++ (before ++ after))).length =
        (encode (read ++ before)).length + (encode after).length := by
      rw [← String.append_assoc, Text.encode_append, List.length_append]
    by_cases last : (encode (read ++ before)).length = (encode (read ++ (before ++ after))).length
    · have done : encode after = [] := List.eq_nil_of_length_eq_zero (by omega)
      rw [decide_eq_true last, Text.encode_inj (done.trans Text.encode_empty.symm),
        String.append_empty]
    · rw [decide_eq_false last]
      have filled : encode before ≠ [] := by
        intro none
        apply progress _ (Text.encode_inj (none.trans Text.encode_empty.symm))
        intro empty
        have split := congrArg encode empty
        rw [Text.encode_append, none, List.nil_append, Text.encode_empty] at split
        rw [split, List.length_nil] at parts
        exact last (by omega)
      have some_before : 0 < (encode before).length := List.length_pos_of_ne_nil filled
      rw [Text.encode_append, List.length_append] at enough
      rw [← String.append_assoc] at found fits
      have later := ih (number + 1) (read ++ before) after found fits (by omega)
      simp only [later, Option.map_some]

/-- A reader that goes on from the start to the last page reads the snapshot. -/
theorem readAll_text {text : String} {limits : Nat → Nat}
    (bounded : ∀ number, 4 ≤ limits number ∧ limits number ≤ 4096)
    (found : disk.snapshot thread id = some (encode text))
    (fits : (encode text).length ≤ archive.maxOutputBytes) :
    ∃ fuel, readAll newId disk archive thread id limits fuel 0 0 = some text := by
  refine ⟨(encode text).length + 1, ?_⟩
  have start : "" ++ text = text := String.empty_append
  rw [← start] at found fits
  exact readAll_rest limits bounded 0 "" text found fits (Nat.lt_succ_self _)

end Pages

end Nausicaa.ContextFs
