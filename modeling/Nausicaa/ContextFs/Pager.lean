import Nausicaa.ContextFs.Pages

/-! # The archive as a pager

At every offset the archive gives the page of the text or fails where there is none
(`readPage_pageAt`), although it decodes only the bytes of the page. -/

namespace Nausicaa.ContextFs

open Core (ContextError ThreadId)
open Json (Value)
open Text (Page encode pageAt)

section Pager

variable {newId : Disk → String} {disk : Disk} {thread : ThreadId} {id text : String}
variable {archive : OutputArchive} {bytes : Bytes} {offset limit total : Nat}

/-- A page as a reader of the archive takes it. -/
def takeArchivePage (value : Value) : Option Page :=
  (takePage value).map fun page => ⟨page.1, page.2.1, page.2.2⟩

theorem takeArchivePage_pageValue (next : Nat) :
    takeArchivePage (OutputArchive.pageValue id text next total) =
      some ⟨text, next, decide (next = total)⟩ := by
  rw [takeArchivePage, takePage_pageValue]
  rfl

/-- Bytes that begin inside a character are not decoded. -/
theorem page_inside {first : UInt8} {rest : Bytes} (continues : Text.isContinuation first = true) :
    ∃ error, OutputArchive.page id offset total (first :: rest) = .error error := by
  have range := of_decide_eq_true continues
  have start : Text.utf8Start first rest = .invalid 1 := by
    have none : Text.utf8Width first = 0 := by
      rw [Text.utf8Width, if_neg (by omega), if_neg (by omega), if_neg (by omega), if_neg (by omega)]
    rw [Text.utf8Start, none]
  have undecoded : Text.decode (first :: rest) = none := by
    cases decoded : Text.decode (first :: rest) with
    | none => rfl
    | some text =>
      have head := Text.isContinuation_head (Text.encode_of_decode decoded)
      rw [continues] at head
      cases head
  have fault : Text.fromUtf8 (first :: rest) = .error ⟨0, some 1⟩ := by
    rw [Text.fromUtf8, undecoded]
    dsimp only
    rw [List.length_cons, Text.utf8Fault, start]
    rfl
  refine ⟨readError (Text.Utf8Error.toString ⟨0, some 1⟩), ?_⟩
  have invalid : OutputArchive.validBytes offset total (first :: rest) =
      .error (readError (Text.Utf8Error.toString ⟨0, some 1⟩)) := by
    rw [OutputArchive.validBytes, fault]
    exact if_neg (by simp)
  rw [OutputArchive.page, invalid]
  rfl

theorem readPage_beyond (found : disk.snapshot thread id = some bytes)
    (fits : bytes.length ≤ archive.maxOutputBytes) (beyond : bytes.length < offset)
    (bounded : 4 ≤ limit ∧ limit ≤ 4096) :
    host newId (archive.readPage thread id offset limit) disk =
      (some (.error (readError "page offset exceeds snapshot length")), disk) := by
  obtain ⟨path, inode, named, housed, file, rfl⟩ := snapshot_iff.mp found
  have length : disk.serve (.length inode) = (some (.ok (disk.contents inode).length), disk) := rfl
  rw [OutputArchive.readPage, host_bind _ (host_ensure _ bounded),
    host_bind _ (openSnapshot_host named housed file fits), host_bind _ (host_perform length)]
  exact host_bind_error _ (host_ensure_error _ (Nat.not_le_of_lt beyond))

/-- What the archive gives at an offset. -/
theorem readPage_pageAt (newId : Disk → String) (found : disk.snapshot thread id = some (encode text))
    (fits : (encode text).length ≤ archive.maxOutputBytes) (bounded : 4 ≤ limit ∧ limit ≤ 4096)
    (offset : Nat) :
    match pageAt text limit offset with
    | some page => (host newId (archive.readPage thread id offset limit) disk).1 =
        some (.ok (OutputArchive.pageValue id page.text page.next (encode text).length)) ∧
      page.last = decide (page.next = (encode text).length)
    | none => ∃ error, (host newId (archive.readPage thread id offset limit) disk).1 =
        some (.error error) := by
  by_cases boundary : Text.isCharBoundary text offset = true
  · obtain ⟨read, rest, rfl, rfl⟩ := Text.isCharBoundary_iff.mp boundary
    have inside : (encode read).length ≤ (encode (read ++ rest)).length := by
      rw [Text.length_encode_append]
      exact Nat.le_add_right _ _
    obtain ⟨before, after, _, _, made, shown⟩ := page_text id read rest bounded.1
    rw [shown, readPage_host found fits inside bounded, made]
    exact ⟨rfl, rfl⟩
  · have none : Text.pageAt text limit offset = none :=
      Text.pageAt_none.mpr (Bool.eq_false_of_not_eq_true boundary)
    rw [none]
    by_cases beyond : (encode text).length < offset
    · rw [readPage_beyond found fits beyond bounded]
      exact ⟨_, rfl⟩
    · rw [readPage_host found fits (Nat.le_of_not_lt beyond) bounded]
      rw [Text.isCharBoundary] at boundary
      split at boundary
      next byte here =>
        have split : ((encode text).drop offset).take limit =
            byte :: ((encode text).drop (offset + 1)).take (limit - 1) := by
          obtain ⟨within, same⟩ := List.getElem?_eq_some_iff.mp here
          obtain ⟨less, rfl⟩ := Nat.exists_eq_succ_of_ne_zero (show limit ≠ 0 by omega)
          rw [← List.cons_getElem_drop_succ (h := within), same]
          rfl
        rw [split]
        have continues : Text.isContinuation byte = true := by simpa using boundary
        obtain ⟨error, failed⟩ := page_inside continues
        exact ⟨error, congrArg some failed⟩
      next none =>
        -- Only behind the last byte there is none.
        have end' := List.getElem?_eq_none_iff.mp none
        exact absurd (decide_eq_true (by omega : offset = (encode text).length)) boundary

/-- The pages that a reader of the archive gets, all of one limit. -/
def pager (newId : Disk → String) (disk : Disk) (archive : OutputArchive) (thread : ThreadId)
    (id : String) (limit offset : Nat) : Option Page :=
  match (host newId (archive.readPage thread id offset limit) disk).1 with
  | some (.ok value) => takeArchivePage value
  | _ => none

theorem pager_pageAt (newId : Disk → String) (found : disk.snapshot thread id = some (encode text))
    (fits : (encode text).length ≤ archive.maxOutputBytes) (bounded : 4 ≤ limit ∧ limit ≤ 4096)
    (offset : Nat) : pager newId disk archive thread id limit offset = pageAt text limit offset ∧
      ((∃ error, (host newId (archive.readPage thread id offset limit) disk).1 =
        some (.error error)) ↔ pageAt text limit offset = none) := by
  have given := readPage_pageAt newId found fits bounded offset
  rw [pager]
  cases shown : pageAt text limit offset with
  | none =>
    rw [shown] at given
    obtain ⟨error, failed⟩ := given
    rw [failed]
    exact ⟨rfl, fun _ => rfl, fun _ => ⟨error, rfl⟩⟩
  | some page =>
    rw [shown] at given
    obtain ⟨made, last⟩ := given
    rw [made]
    dsimp only
    rw [takeArchivePage_pageValue, ← last]
    exact ⟨rfl, by simp⟩

end Pager

end Nausicaa.ContextFs
