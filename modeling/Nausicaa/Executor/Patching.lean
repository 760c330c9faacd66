import Nausicaa.Executor.EditRules
import Nausicaa.Executor.EditServing

/-! # Patches

One search and another one behind its first character tell whether a text occurs exactly once
(`patched_ok`).  A prepared patch replaces the whole content that it was prepared for, or the file
is left as it was, unless the call does not know (`ApplyPatchTool.patches`). -/

namespace Nausicaa.Executor

open Core (PreparedToolCall ToolCall ToolError ToolExecutionContext)
open Interaction (Contract evaluate evaluate_bind evaluate_stop request)
open Posix (Path Place Tree)
open Text (OccursAt encode find length_encode_append slice)

namespace ApplyPatchTool

variable {before after old new front back : String}

/-! ## The one occurrence -/

theorem occursAt_behind (front tail old : String) (offset : Nat) :
    OccursAt tail old offset ↔ OccursAt (front ++ tail) old ((encode front).length + offset) := by
  rw [OccursAt, OccursAt, Text.encode_append, List.drop_append]
  rw [List.drop_of_length_le (Nat.le_add_right _ _), List.nil_append, Nat.add_sub_cancel_left]

/-- Another occurrence begins behind the first character of the first one, or before it. -/
theorem occursAt_ne {char : Char} {rest : String} (filled : old ≠ "")
    (split : before = front ++ (String.singleton char ++ rest)) {offset : Nat}
    (occurs : OccursAt before old offset) (later : (encode front).length < offset) :
    (encode (front ++ String.singleton char)).length ≤ offset := by
  obtain ⟨front', back', split', rfl⟩ := (Text.occursAt_iff filled).mp occurs
  have chars := congrArg String.toList (split'.symm.trans split)
  simp only [String.toList_append, String.toList_singleton, List.append_assoc,
    List.singleton_append] at chars
  rw [length_encode_append]
  simp only [Text.encode_eq_flatMap, String.toList_singleton, List.flatMap_cons, List.flatMap_nil,
    List.append_nil] at later ⊢
  obtain within | behind := Text.cut_le_or chars
  · omega
  · exact behind

theorem exists_first (filled : old ≠ "") :
    ∃ char rest, old = String.singleton char ++ rest ∧ ∀ back,
      firstWidth (old ++ back) = (encode (String.singleton char)).length := by
  cases chars : old.toList with
  | nil => exact absurd (String.toList_eq_nil_iff.mp chars) filled
  | cons char rest =>
    refine ⟨char, String.ofList rest, ?_, ?_⟩
    · rw [← String.toList_inj, chars]
      simp
    · intro back
      rw [firstWidth, String.toList_append, chars, Text.encode_eq_flatMap]
      simp [String.length_utf8EncodeChar]

/-- The second search misses exactly where there is no other occurrence. -/
theorem find_again (filled : old ≠ "") (split : before = front ++ old ++ back)
    (first : ∀ offset, OccursAt before old offset → (encode front).length ≤ offset) :
    find (slice before ((encode front).length +
      firstWidth (slice before (encode front).length (encode before).length))
      (encode before).length) old = none ↔
    ∀ offset, OccursAt before old offset → offset = (encode front).length := by
  obtain ⟨char, rest, parts, width⟩ := exists_first filled
  have whole : before = front ++ (String.singleton char ++ (rest ++ back)) := by
    rw [split, parts]
    simp only [String.append_assoc]
  have tail : slice before (encode front).length (encode before).length = old ++ back := by
    rw [split, String.append_assoc, Text.slice_after]
  have next : slice before ((encode front).length + (encode (String.singleton char)).length)
      (encode before).length = rest ++ back := by
    rw [← length_encode_append, whole, ← String.append_assoc, Text.slice_after]
  rw [tail, width, next, Text.find_none filled]
  have step : before = front ++ String.singleton char ++ (rest ++ back) := by
    rw [whole, String.append_assoc]
  have wide : 0 < (encode (String.singleton char)).length := by
    rw [Text.encode_eq_flatMap]
    simp [String.length_utf8EncodeChar, Char.utf8Size_pos]
  constructor
  · intro absent offset occurs
    by_contra other
    have least := first offset occurs
    have far := occursAt_ne filled whole occurs (by omega)
    obtain ⟨index, rfl⟩ := Nat.exists_eq_add_of_le far
    rw [step, ← occursAt_behind] at occurs
    exact absent index occurs
  · intro only offset occurs
    rw [occursAt_behind (front ++ String.singleton char), ← step] at occurs
    have same := only _ occurs
    rw [length_encode_append] at same
    omega

/-- What a patch makes of a text: the only occurrence is replaced, within the limit. -/
theorem patched_ok (filled : old ≠ "") : patched before old new = .ok after ↔
    ∃ front back, before = front ++ old ++ back ∧
      (∀ offset, OccursAt before old offset ↔ offset = (encode front).length) ∧
      after = front ++ new ++ back ∧ (encode after).length ≤ maxFileBytes := by
  rw [patched]
  cases found : find before old with
  | none =>
    constructor
    · intro none
      cases none
    · rintro ⟨front, back, _, only, _⟩
      exact absurd ((only _).mpr rfl) ((Text.find_none filled).mp found _)
  | some start =>
    obtain ⟨front, back, split, rfl, _⟩ := Text.find_cut found
    obtain ⟨occurs, least⟩ := (Text.find_some filled).mp found
    have again := find_again filled split least
    have replaced : Text.replaceRange before (encode front).length
        ((encode front).length + (encode old).length) new = front ++ new ++ back := by
      rw [split, ← length_encode_append, Text.replaceRange_append]
    dsimp only
    rw [replaced]
    have unique {front' back' : String} (split' : before = front' ++ old ++ back')
        (same : (encode front').length = (encode front).length) : front' = front ∧ back' = back := by
      have bytes := congrArg encode (split'.symm.trans split)
      simp only [Text.encode_append] at bytes
      rw [List.append_assoc, List.append_assoc] at bytes
      obtain ⟨fronts, backs⟩ := List.append_inj bytes same
      exact ⟨Text.encode_inj fronts, Text.encode_inj (List.append_cancel_left backs)⟩
    by_cases ambiguous : find (slice before ((encode front).length +
        firstWidth (slice before (encode front).length (encode before).length))
        (encode before).length) old = none
    · have only := again.mp ambiguous
      rw [ambiguous, Option.isSome_none, if_neg (by simp)]
      constructor
      · intro ran
        split at ran
        next => cases ran
        next fits =>
          cases ran
          exact ⟨front, back, split, fun offset => ⟨only offset, fun same => same ▸ occurs⟩, rfl,
            Nat.le_of_not_lt fits⟩
      · rintro ⟨front', back', split', only', rfl, fits⟩
        obtain ⟨rfl, rfl⟩ := unique split' ((only' _).mp occurs).symm
        rw [if_neg (Nat.not_lt_of_le fits)]
    · rw [if_pos (Option.isSome_iff_ne_none.mpr ambiguous)]
      constructor
      · intro none
        cases none
      · rintro ⟨front', back', split', only', _⟩
        apply absurd (again.mpr _) ambiguous
        intro offset other
        rw [(only' offset).mp other, (only' _).mp occurs]

/-! ## Preparing -/

/-- A call that asks for a patch of a file. -/
structure Requests (tool : ApplyPatchTool) (tree : Tree) (call : ToolCall) (file : Place)
    (old new : String) : Prop where
  path : ∃ requested, stringArgument call.arguments "path" = .ok requested ∧
    validateRelative (Path.parse requested) = .ok () ∧
    tree.canonicalize ((Path.ofPlace tool.workspace).join (Path.parse requested)) = .ok file
  inside : tool.workspace <:+ file
  old_text : stringArgument call.arguments "old_text" = .ok old
  new_text : stringArgument call.arguments "new_text" = .ok new

variable {tool : ApplyPatchTool} {tree : Tree} {call : ToolCall} {file : Place}
variable {prepared : PreparedToolCall} {context : ToolExecutionContext}

theorem evaluate_prepare (requests : tool.Requests tree call file old new)
    (regular : tree.node file = some (.file (encode before)))
    (fits : (encode before).length ≤ maxFileBytes) (fitsOld : (encode old).length ≤ maxFileBytes)
    (fitsNew : (encode new).length ≤ maxFileBytes) :
    (evaluate EditHost.serve (tool.prepare call) (.start tree)).1 =
      if old = "" then .error (invalid "invalid patch size or empty old_text")
      else (patched before old new).map fun after => preparedCall call "apply_patch"
        (preparedArguments file before after old new) tool.workspace true := by
  obtain ⟨requested, named, relative, found⟩ := requests.path
  rw [prepare, named, requests.old_text, requests.new_text, evaluate_bind (evaluate_ofExcept _),
    evaluate_bind (evaluate_resolveExistingFile relative found requests.inside regular),
    evaluate_bind (evaluate_ofExcept _), evaluate_bind (evaluate_ofExcept _)]
  by_cases empty : old = ""
  · rw [if_pos empty, evaluate_stop (evaluate_ensure_error _ (by simp [empty]))]
  · have sizes : ¬ (old = "" ∨ maxFileBytes < (encode old).length ∨
        maxFileBytes < (encode new).length) := by
      rintro (none | long | long)
      · exact empty none
      · omega
      · omega
    have opens : evaluate EditHost.serve _ (EditHost.start tree) = _ := evaluate_openFile regular
    have found : ((EditHost.start tree).withOpen (.ofPlace file) file).tree.node file = _ := regular
    have read := evaluate_readText rfl found
    rw [textOf_take, if_pos fits] at read
    rw [if_neg empty, evaluate_bind (evaluate_ensure _ sizes),
      evaluate_bind opens, execution_ok, pure_bind,
      evaluate_bind read]
    cases patched before old new with
    | ok after => rw [evaluate_bind (evaluate_ofExcept _)]; rfl
    | error error => rw [evaluate_stop (evaluate_ofExcept _)]; rfl

/-- A patch is prepared where the text occurs once and the result is not too long. -/
theorem prepare_ok (requests : tool.Requests tree call file old new)
    (regular : tree.node file = some (.file (encode before)))
    (fits : (encode before).length ≤ maxFileBytes) (fitsOld : (encode old).length ≤ maxFileBytes)
    (fitsNew : (encode new).length ≤ maxFileBytes) :
    (evaluate EditHost.serve (tool.prepare call) (.start tree)).1 = .ok prepared ↔
      old ≠ "" ∧ ∃ front back, before = front ++ old ++ back ∧
        (∀ offset, OccursAt before old offset ↔ offset = (encode front).length) ∧
        (encode (front ++ new ++ back)).length ≤ maxFileBytes ∧
        prepared = preparedCall call "apply_patch"
          (preparedArguments file before (front ++ new ++ back) old new) tool.workspace true := by
  rw [evaluate_prepare requests regular fits fitsOld fitsNew]
  by_cases empty : old = ""
  · simp [empty]
  · rw [if_neg empty]
    constructor
    · intro ran
      cases made : patched before old new with
      | error error =>
        rw [made] at ran
        cases ran
      | ok after =>
        rw [made] at ran
        cases ran
        obtain ⟨front, back, split, only, rfl, short⟩ := (patched_ok empty).mp made
        exact ⟨empty, front, back, split, only, short, rfl⟩
    · rintro ⟨_, front, back, split, only, short, rfl⟩
      rw [(patched_ok empty).mpr ⟨front, back, split, only, rfl, short⟩]
      rfl

/-! ## Executing -/

theorem components_parse_text (file : Place) :
    (Path.parse (Path.ofPlace file).text).components = (Path.ofPlace file).components := by
  cases file with
  | nil => rfl
  | cons name place => rw [Path.parse_text rfl (by simp [Path.ofPlace])]

/-- What a prepared patch does to the tree, whichever operations fail. -/
theorem execute_writes
    (given : prepared.action.arguments = preparedArguments file before after old new) :
    editing.Tries (tool.execute prepared context)
      (fun _ host => tree.node file = some (.file (encode before)) ∧
        host.tree.node = Function.update tree.node file (some (.file (encode after))))
      (fun error host => host.tree = tree ∨ tree.node file = some (.file (encode before)) ∧
        (∃ reason, error = .outcomeUnknown reason) ∧
        ∃ bytes, PartlyWritten (encode before) (encode after) bytes ∧
          host.tree.node = Function.update tree.node file (some (.file bytes)))
      (.start tree) := by
  apply tool.tries_execute prepared context
  · intro error
    exact .inl rfl
  · intro error path opened _ _
    exact .inl rfl
  · intro error path opened count cursor _ _
    exact .inl rfl
  · intro path opened count before' after' output named before_text after_text approved regular
    rw [given] at named before_text after_text
    have same : opened = file := by
      cases named
      exact Path.components_ofPlace_inj (approved.same.trans (components_parse_text file))
    subst same
    have before_same : before' = before := (Except.ok.inj before_text).symm
    have after_same : after' = after := (Except.ok.inj after_text).symm
    rw [before_same] at regular
    rw [after_same]
    have found : ((EditHost.start tree).seen opened count 0).tree.node opened = _ := regular
    apply tries_overwrite found rfl
    · intro host rewritten
      exact ⟨regular, rewritten.node⟩
    · intro error bytes host partly rewritten
      exact .inr ⟨regular, ⟨_, rfl⟩, bytes, partly, rewritten.node⟩

/-- A patch that was applied is not applied again. -/
theorem execute_again
    (given : prepared.action.arguments = preparedArguments file before after old new)
    (applied : tree.node file = some (.file (encode after))) :
    editing.Tries (tool.execute prepared context)
      (fun _ host => before = after ∧ host.tree = tree) (fun _ host => host.tree = tree)
      (.start tree) := by
  have unchanged {bytes : List UInt8} (regular : tree.node file = some (.file bytes)) :
      Function.update tree.node file (some (.file bytes)) = tree.node := by
    rw [← regular, Function.update_eq_self]
  have only (regular : tree.node file = some (.file (encode before))) : before = after := by
    rw [applied] at regular
    exact (Text.encode_inj (Posix.Node.file.inj (Option.some.inj regular))).symm
  apply Contract.Tries.mono (execute_writes given)
  · rintro output host ⟨regular, node⟩
    refine ⟨only regular, Tree.eq_of_node ?_⟩
    rw [node, unchanged applied]
  · rintro error host (same | ⟨regular, _, bytes, partly, node⟩)
    · exact same
    · apply Tree.eq_of_node
      -- Any part of the same bytes in front of the rest is the content itself.
      have whole : bytes = encode after := by
        rw [only regular] at partly
        obtain rfl | ⟨written, ⟨more, part⟩, rfl⟩ := partly
        · rfl
        · rw [← part, List.drop_left]
      rw [node, whole, unchanged applied]

/-- A patch is prepared exactly where its text occurs once in the file and the result is not too
long, and has the result in its arguments.  Executed on any tree, whichever operations fail, it
replaces the content that it was prepared for, and then not once more; where it fails it leaves the
tree as it was, unless it says that it does not know. -/
theorem patches (tool : ApplyPatchTool) :
    (∀ tree call file before old new prepared, tool.Requests tree call file old new →
      tree.node file = some (.file (encode before)) → (encode before).length ≤ maxFileBytes →
      (encode old).length ≤ maxFileBytes → (encode new).length ≤ maxFileBytes →
      ((evaluate EditHost.serve (tool.prepare call) (.start tree)).1 = .ok prepared ↔
        old ≠ "" ∧ ∃ front back, before = front ++ old ++ back ∧
          (∀ offset, OccursAt before old offset ↔ offset = (encode front).length) ∧
          (encode (front ++ new ++ back)).length ≤ maxFileBytes ∧
          prepared = preparedCall call "apply_patch"
            (preparedArguments file before (front ++ new ++ back) old new) tool.workspace true)) ∧
    ∀ prepared file before after old new,
      prepared.action.arguments = preparedArguments file before after old new →
      ∀ tree context, editing.Tries (tool.execute prepared context)
        (fun _ host => tree.node file = some (.file (encode before)) ∧
          host.tree.node = Function.update tree.node file (some (.file (encode after))) ∧
          ∀ context, editing.Tries (tool.execute prepared context)
            (fun _ again => before = after ∧ again.tree = host.tree)
            (fun _ again => again.tree = host.tree) (.start host.tree))
        (fun error host => host.tree = tree ∨
          tree.node file = some (.file (encode before)) ∧ ∃ reason, error = .outcomeUnknown reason)
        (.start tree) := by
  constructor
  · intro tree call file before old new prepared requests regular fits fitsOld fitsNew
    exact prepare_ok requests regular fits fitsOld fitsNew
  · intro prepared file before after old new given tree context
    apply Contract.Tries.mono (execute_writes given)
    · rintro output host ⟨regular, node⟩
      refine ⟨regular, node, ?_⟩
      intro context
      apply execute_again given
      rw [node, Function.update_self]
    · rintro error host (same | ⟨regular, unknown, _⟩)
      · exact .inl same
      · exact .inr ⟨regular, unknown⟩

theorem patches_once :
    let name : Posix.Name := ⟨"a", by decide, by decide, by decide, by decide⟩
    let call : ToolCall := ⟨⟨"call"⟩, "apply_patch", .object [("new_text", .string "cd"),
      ("old_text", .string "b"), ("path", .string "a")]⟩
    let prepared := preparedCall call "apply_patch" (preparedArguments [name] "ab" "acd" "b" "cd")
      [] true
    (evaluate EditHost.serve (prepare ⟨[]⟩ call) (.start (.single name (encode "ab")))).1 =
        .ok prepared ∧
      editing.Tries (execute ⟨[]⟩ prepared ⟨⟨"thread"⟩, ⟨"turn"⟩, none, ⟨0⟩, ∅⟩)
        (fun _ host => host.tree.node [name] = some (.file (encode "acd"))) (fun _ _ => True)
        (.start (.single name (encode "ab"))) := by
  intro name call prepared
  have file := Tree.single_file name (encode "ab")
  have requests : Requests ⟨[]⟩ (.single name (encode "ab")) call [name] "b" "cd" := by
    refine ⟨⟨"a", rfl, by decide, ?_⟩, List.nil_suffix, rfl, rfl⟩
    have joined : (Path.ofPlace []).join (Path.parse "a") = .ofPlace [name] := by decide
    rw [joined]
    exact Tree.canonicalize_ofPlace (Tree.solid_file file)
  have only (offset : Nat) : OccursAt "ab" "b" offset ↔ offset = (encode "a").length := by
    match offset with
    | 0 => decide
    | 1 => decide
    | offset + 2 =>
      rw [OccursAt, List.drop_of_length_le]
      · constructor
        · intro none
          exact absurd none (by decide)
        · intro same
          exact absurd same (by simp [show (encode "a").length = 1 by decide])
      · exact Nat.le_add_left 2 offset
  obtain ⟨prepares, executes⟩ := patches ⟨[]⟩
  constructor
  · exact (prepares _ _ _ _ _ _ prepared requests file (by decide) (by decide) (by decide)).mpr
      ⟨by decide, "a", "", by decide, only, by decide, by decide⟩
  · apply Contract.Tries.mono (executes prepared [name] "ab" "acd" "b" "cd" rfl _ _)
    · rintro output host ⟨_, node, _⟩
      rw [node, Function.update_self]
    · exact fun _ _ _ => trivial

end ApplyPatchTool

end Nausicaa.Executor
