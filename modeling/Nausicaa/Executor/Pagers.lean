import Nausicaa.ContextFs.Lossless
import Nausicaa.ContextFs.Pager
import Nausicaa.Executor.EditServing

/-! # Two pagers

`read_file_page` walks back from the end of its window, the archive decodes the window and keeps
what is whole.  Both give the same pages of the same text, and following them from the start reads
all of it (`pagers_agree`). -/

namespace Nausicaa.Executor

open Core (PreparedToolCall ThreadId ToolCall ToolError ToolExecutionContext ToolOutput)
open Interaction (evaluate evaluate_bind evaluate_stop)
open Json (Value)
open Posix (Path Place Tree)
open Text (Page encode pageAt)

variable {text : String} {offset limit : Nat} {file : Place} {tree : Tree}

namespace ReadFilePageTool

variable {tool : ReadFilePageTool} {prepared : PreparedToolCall}

/-- The page of the tool is the page of the text. -/
theorem page_pageAt (file : Place) (text : String) (offset : Nat) (bounded : 4 ≤ limit) :
    page file text offset limit =
      match pageAt text limit offset with
      | some page => .ok ⟨pageValue file page.text offset page.next (encode text).length⟩
      | none => .error (invalid "invalid page bounds or UTF-8 offset") := by
  rw [page, pageAt]
  by_cases boundary : Text.isCharBoundary text offset = true
  · have inside : offset ≤ (encode text).length := by
      obtain ⟨before, after, rfl, rfl⟩ := Text.isCharBoundary_iff.mp boundary
      rw [Text.length_encode_append]
      exact Nat.le_add_right _ _
    have valid : ¬ (limit < 4 ∨ (encode text).length < offset ∨
        Text.isCharBoundary text offset = false) := by
      rintro (few | beyond | cut)
      · omega
      · omega
      · rw [boundary] at cut
        cases cut
    rw [if_pos boundary]
    dsimp only
    rw [if_neg valid]
  · have cut := Bool.eq_false_of_not_eq_true boundary
    rw [if_neg boundary]
    dsimp only
    rw [if_pos (.inr (.inr cut))]

/-- The number in prepared arguments, unless it is too large. -/
theorem number_posInt {arguments : Value} {key : String} {value default maximum : Nat}
    (given : arguments.get key = some (.number (.posInt value))) :
    number arguments key default maximum = if value ≤ maximum then .ok value
      else .error (invalid s!"invalid `{key}`") := by
  have read : (Value.number (.posInt value)).asNat.filter (fun n => n ≤ maximum) =
      if value ≤ maximum then some value else none := by
    simp [Value.asNat, Option.filter]
  rw [number, given]
  dsimp only
  rw [read]
  by_cases small : value ≤ maximum
  · rw [if_pos small, if_pos small]
  · rw [if_neg small, if_neg small]

/-- What the tool gives at an offset of a file. -/
theorem execute_pageAt (housed : tree.node tool.workspace = some .directory)
    (inside : tool.workspace <:+ file) (regular : tree.node file = some (.file (encode text)))
    (fits : (encode text).length ≤ maxFileBytes) (bounded : 4 ≤ limit ∧ limit ≤ maxPageBytes)
    (given : prepared.action.arguments = preparedArguments file offset limit)
    (context : ToolExecutionContext) :
    match pageAt text limit offset with
    | some page => (evaluate EditHost.serve (tool.execute prepared context) (.start tree)).1 =
        .ok ⟨pageValue file page.text offset page.next (encode text).length⟩
    | none => ∃ error, (evaluate EditHost.serve (tool.execute prepared context) (.start tree)).1 =
        .error error := by
  have filled : file ≠ [] := by
    rintro rfl
    rw [tree.root] at regular
    cases regular
  have named : pathArgument prepared.action.arguments "path" = .ok (.ofPlace file) := by
    rw [given]
    exact pathArgument_value filled rfl
  have offset_given : prepared.action.arguments.get "offset" = some (.number (.posInt offset)) := by
    rw [given]
    rfl
  have limit_given : prepared.action.arguments.get "limit" = some (.number (.posInt limit)) := by
    rw [given]
    rfl
  have start : (EditHost.start tree).tree.node tool.workspace = _ := housed
  obtain ⟨count, read⟩ := evaluate_readChecked start inside regular fun path content => do
    let offset ← ofExcept (number prepared.action.arguments "offset" 0 maxFileBytes)
    let limit ← ofExcept (number prepared.action.arguments "limit" 4096 maxPageBytes)
    ofExcept (page path content offset limit)
  rw [if_pos fits] at read
  rw [execute, evaluate_bind (evaluate_checkCancelled _)]
  dsimp only
  rw [named, evaluate_bind (evaluate_ofExcept _), read, number_posInt offset_given,
    number_posInt limit_given, if_pos bounded.2]
  by_cases small : offset ≤ maxFileBytes
  · rw [if_pos small, evaluate_bind (evaluate_ofExcept _), evaluate_bind (evaluate_ofExcept _),
      evaluate_ofExcept, page_pageAt file text offset bounded.1]
    cases pageAt text limit offset with
    | none => exact ⟨_, rfl⟩
    | some page => rfl
  · -- The offset is behind every file that can be read.
    have none : pageAt text limit offset = none := by
      rw [Text.pageAt_none]
      apply Bool.eq_false_of_not_eq_true
      intro boundary
      obtain ⟨before, after, rfl, rfl⟩ := Text.isCharBoundary_iff.mp boundary
      rw [Text.length_encode_append] at fits
      omega
    rw [none, if_neg small, evaluate_stop (evaluate_ofExcept _)]
    exact ⟨_, rfl⟩

/-- A page as a reader of the file takes it. -/
def takeFilePage (value : Value) : Option Page :=
  match (value.get "content").bind Value.asString, (value.get "offset").bind Value.asNat,
    value.get "next_offset" with
  | some content, some _, some (.number (.posInt next)) => some ⟨content, next, false⟩
  | some content, some offset, some .null => some ⟨content, offset + (encode content).length, true⟩
  | _, _, _ => none

theorem takeFilePage_pageValue {page : Page} (shown : pageAt text limit offset = some page) :
    takeFilePage (pageValue file page.text offset page.next (encode text).length) = some page := by
  have boundary : Text.isCharBoundary text offset = true := by
    cases cut : Text.isCharBoundary text offset with
    | true => rfl
    | false =>
      rw [Text.pageAt_none.mpr cut] at shown
      cases shown
  obtain ⟨read, rest, rfl, rfl⟩ := Text.isCharBoundary_iff.mp boundary
  obtain ⟨before, after, rfl, _, _, made, _⟩ := Text.pageAt_cut read rest limit
  rw [made] at shown
  cases shown
  have total : (encode (read ++ (before ++ after))).length =
      (encode (read ++ before)).length + (encode after).length := by
    rw [← String.append_assoc, Text.length_encode_append]
  dsimp only
  by_cases last : (encode (read ++ before)).length = (encode (read ++ (before ++ after))).length
  · simp [takeFilePage, pageValue, Value.get, Json.valuesAt, Value.asString, Value.asNat, last,
      ← Text.length_encode_append]
  · have more : (encode (read ++ before)).length < (encode (read ++ (before ++ after))).length := by
      omega
    simp [takeFilePage, pageValue, Value.get, Json.valuesAt, Value.asString, Value.asNat, last, more]

variable (tool tree) in
/-- How a call with a prepared offset ends. -/
def ran (call : ToolCall) (context : ToolExecutionContext) (file : Place) (limit offset : Nat) :
    Except ToolError ToolOutput :=
  let prepared := preparedCall call "read_file_page" (preparedArguments file offset limit)
    tool.workspace false
  (evaluate EditHost.serve (tool.execute prepared context) (.start tree)).1

variable (tool tree) in
/-- The pages that a reader of the file gets, all of one limit. -/
def pager (call : ToolCall) (context : ToolExecutionContext) (file : Place) (limit offset : Nat) :
    Option Page :=
  match tool.ran tree call context file limit offset with
  | .ok output => takeFilePage output.value
  | .error _ => none

theorem pager_pageAt (call : ToolCall) (context : ToolExecutionContext)
    (housed : tree.node tool.workspace = some .directory) (inside : tool.workspace <:+ file)
    (regular : tree.node file = some (.file (encode text)))
    (fits : (encode text).length ≤ maxFileBytes) (bounded : 4 ≤ limit ∧ limit ≤ maxPageBytes)
    (offset : Nat) : tool.pager tree call context file limit offset = pageAt text limit offset ∧
      ((∃ error, tool.ran tree call context file limit offset = .error error) ↔
        pageAt text limit offset = none) := by
  have given := execute_pageAt housed inside regular fits bounded
    (rfl : (preparedCall call "read_file_page" (preparedArguments file offset limit)
      tool.workspace false).action.arguments = _) context
  rw [pager, ran]
  cases shown : pageAt text limit offset with
  | none =>
    rw [shown] at given
    obtain ⟨error, failed⟩ := given
    rw [failed]
    exact ⟨rfl, fun _ => rfl, fun _ => ⟨error, rfl⟩⟩
  | some page =>
    rw [shown] at given
    dsimp only at given
    rw [given]
    exact ⟨takeFilePage_pageValue shown, by simp⟩

end ReadFilePageTool

/-- Both pagers give the same pages of a text, fail at the same offsets, and show all of it to a
reader that follows them. -/
theorem pagers_agree {text : String} {limit : Nat} (bounded : 4 ≤ limit ∧ limit ≤ 4096) :
    (∀ newId disk archive thread id,
      ContextFs.Disk.snapshot disk thread id = some (encode text) →
      (encode text).length ≤ archive.maxOutputBytes →
      Text.Pages text limit (ContextFs.pager newId disk archive thread id limit) fun offset =>
        ∃ error, (ContextFs.host newId (archive.readPage thread id offset limit) disk).1 =
          some (.error error)) ∧
    ∀ (tool : ReadFilePageTool) (tree : Tree) (file : Place) call context,
      tree.node tool.workspace = some .directory → tool.workspace <:+ file →
      tree.node file = some (.file (encode text)) → (encode text).length ≤ maxFileBytes →
      Text.Pages text limit (tool.pager tree call context file limit) fun offset =>
        ∃ error, tool.ran tree call context file limit offset = .error error := by
  constructor
  · intro newId disk archive thread id found fits
    exact .of_pageAt bounded.1 (ContextFs.pager_pageAt newId found fits bounded)
  · intro tool tree file call context housed inside regular fits
    have small : limit ≤ maxPageBytes := Nat.le_trans bounded.2 (by decide)
    exact .of_pageAt bounded.1
      (ReadFilePageTool.pager_pageAt call context housed inside regular fits ⟨bounded.1, small⟩)

/-- A snapshot and a file, with a page that ends in front of a character of two bytes. -/
theorem pagers_agree_accent :
    (∃ disk : ContextFs.Disk, Text.Pages "caféine" 4
      (ContextFs.pager (fun _ => "id") disk ⟨16, by decide⟩ ⟨"thread"⟩ "call" 4) fun offset =>
        ∃ error, (ContextFs.host (fun _ => "id") (ContextFs.OutputArchive.readPage ⟨16, by decide⟩
          ⟨"thread"⟩ "call" offset 4) disk).1 = some (.error error)) ∧
    let name : Posix.Name := ⟨"a", by decide, by decide, by decide, by decide⟩
    let tree : Tree := .single name (encode "caféine")
    let tool : ReadFilePageTool := ⟨[]⟩
    let call : ToolCall := ⟨⟨"call"⟩, "read_file_page", .null⟩
    let context : ToolExecutionContext := ⟨⟨"thread"⟩, ⟨"turn"⟩, none, ⟨0⟩, ∅⟩
    Text.Pages "caféine" 4 (tool.pager tree call context [name] 4) fun offset =>
      ∃ error, tool.ran tree call context [name] 4 offset = .error error := by
  obtain ⟨archives, files⟩ := @pagers_agree "caféine" 4 (by decide)
  have short : (encode "caféine").length ≤ 16 := by decide
  constructor
  · have named : ∃ path, ContextFs.paths ⟨"thread"⟩ "call" = .ok path := by
      rw [ContextFs.paths, ContextFs.component, if_neg (by decide), ContextFs.component,
        if_neg (by decide)]
      exact ⟨_, rfl⟩
    obtain ⟨path, named⟩ := named
    obtain ⟨result, disk, retained⟩ : ∃ result disk,
        ContextFs.Retains (fun _ => "id") ⟨16, by decide⟩ _ _ _ .empty result disk :=
      ContextFs.retains (fun _ => "id") (ContextFs.Disk.Calm.empty 16) named short
    have made := retained.free fun old found => absurd found ContextFs.snapshot_empty
    exact ⟨disk, archives (fun _ => "id") disk ⟨16, by decide⟩ ⟨"thread"⟩ "call"
      (retained.made made) short⟩
  · intro name tree tool call context
    exact files tool tree [name] call context tree.root List.nil_suffix
      (Tree.single_file name (encode "caféine")) (by decide)

end Nausicaa.Executor
