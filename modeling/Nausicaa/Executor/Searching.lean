import Nausicaa.Executor.EditServing

/-! # Search

The lines of a file that contain the query, each with its first occurrence (`fileMatches_finds`).
The loop over lines and files gives the first hundred of them (`search_complete`). -/

namespace Nausicaa.Executor

open Core (CancellationToken PreparedToolCall ToolError ToolExecutionContext)
open Interaction (evaluate evaluate_bind evaluate_bind_eq)
open Json (Value)
open Posix (Path Place Tree)
open Text (OccursAt encode find length_encode_append slice)

namespace SearchFilesTool

/-! ## Lines -/

/-- A line of a text, its terminator included, behind others. -/
structure IsLine (content before line after : String) : Prop where
  split : content = before ++ line ++ after
  starts : before = "" ∨ before.toList.getLast? = some '\n'
  one : '\n' ∉ line.toList.dropLast
  stops : line.toList.getLast? = some '\n' ∨ after = ""

/-- A match is the first one on its line. -/
def Located (path : Path) (query content : String) (hit : Match) : Prop :=
  ∃ before front rest after, IsLine content before (front ++ rest) after ∧
    query.toList <+: rest.toList ∧
    (∀ offset, OccursAt (front ++ rest) query offset → (encode front).length ≤ offset) ∧
    hit = ⟨path, (before ++ front).toList.count '\n' + 1, (encode (before ++ front)).length,
      String.ofList (rest.toList.take 200)⟩

/-- One match for each line that contains the query, in the order of the lines. -/
structure Finds (path : Path) (query content : String) (found : List Match) : Prop where
  lines : found.map Match.line = (((splitInclusive content).zipIdx 1).filter fun line =>
    query.toList <:+: line.1.toList).map Prod.snd
  located : ∀ hit ∈ found, Located path query content hit

/-- The matches in the lines from an index and an offset on. -/
def lineMatches (path : Path) (query : String) : (index offset : Nat) → List String → List Match
  | _, _, [] => []
  | index, offset, line :: lines =>
    let later := lineMatches path query (index + 1) (offset + (encode line).length) lines
    match find line query with
    | none => later
    | some column => ⟨path, index + 1, offset + column,
        String.ofList ((slice line column (encode line).length).toList.take 200)⟩ :: later

variable {path : Path} {query content : String} {found : List Match} {index offset : Nat}

theorem find_isSome (line query : String) :
    (find line query).isSome = true ↔ query.toList <:+: line.toList := by
  cases found : find line query with
  | none =>
    constructor
    · intro none
      cases none
    · rintro ⟨before, after, split⟩
      exact absurd split.symm (Text.findFrom_none found before after)
  | some column =>
    obtain ⟨before, after, split, _⟩ := Text.find_cut found
    constructor
    · intro _
      exact ⟨before.toList, after.toList, by rw [split]; simp⟩
    · intro _
      rfl

theorem lineMatches_lines (path : Path) (query : String) (index offset : Nat)
    (lines : List String) : (lineMatches path query index offset lines).map Match.line =
      ((lines.zipIdx (index + 1)).filter fun line => query.toList <:+: line.1.toList).map
        Prod.snd := by
  induction lines generalizing index offset with
  | nil => rfl
  | cons line lines ih =>
    have contains := find_isSome line query
    rw [lineMatches, List.zipIdx_cons, List.filter_cons]
    cases found : find line query with
    | none =>
      rw [found] at contains
      rw [if_neg (by simpa using contains)]
      exact ih _ _
    | some column =>
      rw [found] at contains
      rw [if_pos (by simpa using contains), List.map_cons, List.map_cons]
      exact congrArg _ (ih _ _)

/-- What stands on a line in front of something else has no terminator. -/
theorem count_front {front rest : String} (filled : rest ≠ "")
    (one : '\n' ∉ (front ++ rest).toList.dropLast) : front.toList.count '\n' = 0 := by
  apply List.count_eq_zero_of_not_mem
  intro member
  apply one
  rw [String.toList_append, List.dropLast_append_of_ne_nil (mt String.toList_eq_nil_iff.mp filled)]
  exact List.mem_append_left _ member

theorem count_line {line : String} (one : '\n' ∉ line.toList.dropLast)
    (stops : line.toList.getLast? = some '\n') : line.toList.count '\n' = 1 := by
  obtain ⟨body, split⟩ := List.getLast?_eq_some_iff.mp stops
  rw [split, List.dropLast_concat] at one
  rw [split, List.count_append, List.count_eq_zero_of_not_mem one]
  rfl

theorem lineMatches_located (filled : query ≠ "") (before rest : String) (lines : List (List Char))
    (split : content = before ++ rest)
    (starts : before = "" ∨ before.toList.getLast? = some '\n')
    (read : Jsonl.lines '\n' rest.toList = lines) :
    ∀ hit ∈ lineMatches path query (before.toList.count '\n') (encode before).length
      (lines.map String.ofList), Located path query content hit := by
  induction lines generalizing before rest with
  | nil =>
    intro hit none
    cases none
  | cons chars others ih =>
    obtain ⟨tail, parts, read', nonempty, one, stops⟩ := Jsonl.lines_cons read
    have whole : rest = String.ofList chars ++ String.ofList tail := by
      rw [← String.toList_inj, parts]
      simp
    have later : ∀ hit ∈ lineMatches path query (before.toList.count '\n' + 1)
        ((encode before).length + (encode (String.ofList chars)).length)
        (others.map String.ofList), Located path query content hit := by
      obtain ends | rfl := stops
      · have next := ih (before ++ String.ofList chars) (String.ofList tail)
          (by rw [split, whole, String.append_assoc])
          (.inr (by
            rw [String.toList_append, String.toList_ofList, List.getLast?_append_of_ne_nil _ nonempty,
              ends]))
          (by rw [String.toList_ofList, read'])
        have counted : (String.ofList chars).toList.count '\n' = 1 :=
          count_line (by rwa [String.toList_ofList]) (by rwa [String.toList_ofList])
        rwa [String.toList_append, List.count_append, counted, length_encode_append] at next
      · cases read'
        intro hit none
        cases none
    intro hit member
    rw [List.map_cons, lineMatches] at member
    cases found : find (String.ofList chars) query with
    | none =>
      rw [found] at member
      exact later hit member
    | some column =>
      rw [found] at member
      obtain rfl | member := List.mem_cons.mp member
      · obtain ⟨_, least⟩ := (Text.find_some filled).mp found
        obtain ⟨front, back, line, rfl, _⟩ := Text.find_cut found
        rw [String.append_assoc] at line
        have shown : query ++ back ≠ "" := by
          intro none
          exact filled (String.append_eq_empty_iff.mp none).1
        have one' : '\n' ∉ (front ++ (query ++ back)).toList.dropLast := by
          rwa [← line, String.toList_ofList]
        refine ⟨before, front, query ++ back, String.ofList tail, ?_, ?_, ?_, ?_⟩
        · refine ⟨?_, starts, one', ?_⟩
          · rw [split, whole, line]
            simp only [String.append_assoc]
          · rw [← line, String.toList_ofList]
            exact stops.imp id fun none => by rw [none]
        · rw [String.toList_append]
          exact List.prefix_append _ _
        · rw [← line]
          exact least
        · have counted : (before ++ front).toList.count '\n' = before.toList.count '\n' := by
            rw [String.toList_append, List.count_append, count_front shown one', Nat.add_zero]
          rw [line, Text.slice_after, counted, length_encode_append]
      · exact later hit member

/-- The matches of a file. -/
def fileMatches (path : Path) (query content : String) : List Match :=
  lineMatches path query 0 0 (splitInclusive content)

theorem fileMatches_finds (filled : query ≠ "") (path : Path) (content : String) :
    Finds path query content (fileMatches path query content) where
  lines := lineMatches_lines path query 0 0 _
  located := lineMatches_located filled "" content _ String.empty_append.symm (.inl rfl) rfl

/-! ## The loops -/

/-- The loop over the lines adds their matches until there are too many. -/
theorem scanLines_eq (path : Path) (query : String) (index offset : Nat) (lines : List String)
    (found : List Match) (room : found.length ≤ maxMatches) :
    scanLines (some path) query index offset lines found =
      let all := found ++ lineMatches path query index offset lines
      .ok (if all.length ≤ maxMatches then .more all else .full (all.take maxMatches)) := by
  induction lines generalizing index offset found with
  | nil =>
    rw [scanLines, lineMatches, List.append_nil]
    dsimp only
    rw [if_pos room]
  | cons line lines ih =>
    rw [scanLines, lineMatches]
    cases contained : find line query with
    | none => exact ih _ _ found room
    | some column =>
      dsimp only
      by_cases full : found.length = maxMatches
      · rw [if_pos full, if_neg (by rw [List.length_append, List.length_cons]; omega), ← full,
          List.take_left]
      · have step := ih (index + 1) (offset + (encode line).length) (found ++ [⟨path, index + 1,
          offset + column, String.ofList ((slice line column (encode line).length).toList.take 200)⟩])
          (by rw [List.length_append, List.length_singleton]; omega)
        rw [List.append_assoc, List.singleton_append] at step
        rw [if_neg full]
        exact step

/-- The path of a file in the workspace, as matches show it. -/
def relativePath (workspace file : Place) : Path :=
  ((Path.ofPlace file).stripPrefix workspace).getD ⟨false, []⟩

/-- A file that a search can read. -/
def fits (file : Place × String) : Bool := (encode file.2).length ≤ maxFileBytes

/-- The matches in the files in front of the first one that is too large. -/
def readMatches (workspace : Place) (query : String) (files : List (Place × String)) : List Match :=
  (files.takeWhile fits).flatMap fun file =>
    fileMatches (relativePath workspace file.1) query file.2

variable {tool : SearchFilesTool} {tree : Tree} {files : List (Place × String)}
variable {file : Place × String} {workspace : Place}

theorem readMatches_small (small : fits file = true) :
    readMatches workspace query (file :: files) =
      fileMatches (relativePath workspace file.1) query file.2 ++
        readMatches workspace query files := by
  rw [readMatches, List.takeWhile_cons, if_pos small, List.flatMap_cons]
  rfl

theorem readMatches_large (large : fits file = false) :
    readMatches workspace query (file :: files) = [] := by
  rw [readMatches, List.takeWhile_cons, large]
  rfl

/-- What the loop over the files does with the text of one of them. -/
def scanText (query : String) (token : CancellationToken) (paths : List Path) (found : List Match)
    (path : Place) (content : String) : EditCode ToolError (List Match × Bool) := do
  match ← ofExcept (scanLines ((Path.ofPlace path).stripPrefix tool.workspace) query 0 0
    (splitInclusive content) found) with
  | .full found => return (found, true)
  | .more found => tool.scanFiles query token paths found

/-- The loop over the files adds their matches until there are too many, or a file is too large. -/
theorem scanFiles_eq (housed : tree.node tool.workspace = some .directory)
    (present : ∀ file ∈ files, tool.workspace <:+ file.1 ∧
      tree.node file.1 = some (.file (encode file.2)))
    (query : String) (token : CancellationToken) (found : List Match)
    (room : found.length ≤ maxMatches) {host : EditHost} (same : host.tree = tree) :
    (evaluate EditHost.serve
      (tool.scanFiles query token (files.map fun file => .ofPlace file.1) found) host).1 =
      let all := found ++ readMatches tool.workspace query files
      if maxMatches < all.length then .ok (all.take maxMatches, true)
      else if files.all fits then .ok (all, false)
      else .error (invalid "file exceeds 1 MiB limit") := by
  induction files generalizing found host with
  | nil =>
    rw [readMatches, List.takeWhile_nil, List.flatMap_nil, List.append_nil]
    dsimp only
    rw [if_neg (Nat.not_lt_of_le room)]
    rfl
  | cons file files ih =>
    obtain ⟨⟨inside, regular⟩, present⟩ := List.forall_mem_cons.mp present
    rw [← same] at housed regular
    obtain ⟨inner, filled, split⟩ := inner_of_file housed inside regular
    have relative : (Path.ofPlace file.1).stripPrefix tool.workspace =
        some (relativePath tool.workspace file.1) := by
      rw [relativePath, split, Path.stripPrefix_ofPlace]
      rfl
    obtain ⟨count, read⟩ := evaluate_readChecked housed inside regular
      (tool.scanText query token (files.map fun file => .ofPlace file.1) found)
    rw [List.map_cons, scanFiles, evaluate_bind (evaluate_checkCancelled _)]
    refine (congrArg Prod.fst read).trans ?_
    cases small : fits file with
    | true =>
      rw [if_pos (of_decide_eq_true small), scanText, relative, scanLines_eq _ _ _ _ _ _ room,
        evaluate_bind (evaluate_ofExcept _), readMatches_small small, ← List.append_assoc,
        List.all_cons, small, Bool.true_and]
      dsimp only
      by_cases more : (found ++ fileMatches (relativePath tool.workspace file.1) query
          file.2).length ≤ maxMatches
      · rw [fileMatches] at more ⊢
        rw [if_pos more]
        exact ih present _ more same
      · rw [fileMatches] at more ⊢
        have here : maxMatches < (found ++ lineMatches (relativePath tool.workspace file.1) query 0 0
            (splitInclusive file.2)).length := Nat.lt_of_not_le more
        rw [if_neg more, if_pos (by rw [List.length_append]; omega),
          List.take_append_of_le_length (Nat.le_of_lt here)]
        rfl
    | false =>
      rw [if_neg (of_decide_eq_false small), readMatches_large small, List.append_nil,
        List.all_cons, small, Bool.false_and]
      dsimp only
      rw [if_neg (Nat.not_lt_of_le room)]
      rfl

/-! ## Calls -/

theorem pathsArgument_places {places : List Place} (filled : ∀ place ∈ places, place ≠ [])
    (query : String) (refusal : Value → String) :
    pathsArgument refusal (preparedArguments places query) = .ok (places.map .ofPlace) := by
  have reads : ∀ path ∈ places.map Path.ofPlace,
      (Value.string path.text).asString.map Path.parse = some path := by
    intro path member
    obtain ⟨place, inside, rfl⟩ := List.mem_map.mp member
    exact congrArg some (Path.parse_text rfl (by simpa [Path.ofPlace] using filled place inside))
  have values : (preparedArguments places query).get "paths" =
      some (.array ((places.map Path.ofPlace).map fun path => .string path.text)) := by
    rw [List.map_map]
    rfl
  rw [pathsArgument, values]
  dsimp only [Option.getD_some]
  rw [Value.asList_map_mem reads]

theorem execute_eq {prepared : PreparedToolCall} (housed : tree.node tool.workspace = some .directory)
    (present : ∀ file ∈ files, tool.workspace <:+ file.1 ∧
      tree.node file.1 = some (.file (encode file.2)))
    (given : prepared.action.arguments = preparedArguments (files.map Prod.fst) query)
    (refusal : Value → String) (context : ToolExecutionContext) :
    (evaluate EditHost.serve (tool.execute refusal prepared context) (.start tree)).1 =
      let found := readMatches tool.workspace query files
      if maxMatches < found.length then .ok ⟨outputValue (found.take maxMatches) true⟩
      else if files.all fits then .ok ⟨outputValue found false⟩
      else .error (invalid "file exceeds 1 MiB limit") := by
  have filled : ∀ place ∈ files.map Prod.fst, place ≠ [] := by
    rintro place member rfl
    obtain ⟨file, member, root⟩ := List.mem_map.mp member
    have regular := (present file member).2
    rw [root, tree.root] at regular
    cases regular
  have asked : stringArgument (preparedArguments (files.map Prod.fst) query) "query" = .ok query :=
    rfl
  have scanned := scanFiles_eq housed present query context.cancellation [] (Nat.zero_le _)
    (rfl : (EditHost.start tree).tree = tree)
  rw [execute, given, pathsArgument_places filled, evaluate_bind (evaluate_ofExcept _), asked,
    evaluate_bind (evaluate_ofExcept _), List.map_map, evaluate_bind_eq]
  cases scan : evaluate EditHost.serve (tool.scanFiles query context.cancellation
      (files.map (Path.ofPlace ∘ Prod.fst)) []) (.start tree) with
  | mk result after =>
    have result_eq : result = _ := (congrArg Prod.fst scan).symm.trans scanned
    rw [result_eq]
    dsimp only
    rw [List.nil_append]
    by_cases many : maxMatches < (readMatches tool.workspace query files).length
    · rw [if_pos many, if_pos many]
      rfl
    · rw [if_neg many, if_neg many]
      by_cases small : files.all fits = true
      · rw [if_pos small, if_pos small]
        rfl
      · rw [if_neg small, if_neg small]

theorem readMatches_finds (filled : query ≠ "") (workspace : Place)
    (files : List (Place × String)) : ∃ perFile, readMatches workspace query files = perFile.flatten ∧
      List.Forall₂ (fun file found => Finds (relativePath workspace file.1) query file.2 found)
        (files.takeWhile fits) perFile := by
  refine ⟨(files.takeWhile fits).map fun file =>
    fileMatches (relativePath workspace file.1) query file.2, ?_, ?_⟩
  · rw [readMatches, List.flatMap_def]
  · rw [List.forall₂_map_right_iff, List.forall₂_same]
    exact fun file _ => fileMatches_finds filled _ _

/-- A search finds the first occurrence on each of the first hundred lines that contain the query,
and says whether there are more.  It fails at a file that is too large, unless the files in front of
it contain more than a hundred of these lines. -/
theorem search_complete {prepared : PreparedToolCall} (filled : query ≠ "")
    (housed : tree.node tool.workspace = some .directory)
    (present : ∀ file ∈ files, tool.workspace <:+ file.1 ∧
      tree.node file.1 = some (.file (encode file.2)))
    (given : prepared.action.arguments = preparedArguments (files.map Prod.fst) query)
    (refusal : Value → String) (context : ToolExecutionContext) :
    ∃ perFile,
      List.Forall₂ (fun file found => Finds (relativePath tool.workspace file.1) query file.2 found)
        (files.takeWhile fits) perFile ∧
      ((∀ file ∈ files, (encode file.2).length ≤ 1048576) →
        files.takeWhile fits = files ∧
        (evaluate EditHost.serve (tool.execute refusal prepared context) (.start tree)).1 =
          .ok ⟨outputValue (perFile.flatten.take 100) (decide (100 < perFile.flatten.length))⟩) ∧
      ((∃ file ∈ files, 1048576 < (encode file.2).length) →
        (evaluate EditHost.serve (tool.execute refusal prepared context) (.start tree)).1 =
          if 100 < perFile.flatten.length then .ok ⟨outputValue (perFile.flatten.take 100) true⟩
          else .error (invalid "file exceeds 1 MiB limit")) := by
  obtain ⟨perFile, same, finds⟩ := readMatches_finds filled tool.workspace files
  have executed := execute_eq housed present given refusal context
  rw [same] at executed
  dsimp only at executed
  refine ⟨perFile, finds, ?_, ?_⟩
  · intro small
    have all : ∀ file ∈ files, fits file = true := fun file member => decide_eq_true (small file member)
    refine ⟨List.takeWhile_eq_self_iff.mpr all, executed.trans ?_⟩
    rw [if_pos (List.all_eq_true.mpr all)]
    by_cases many : maxMatches < perFile.flatten.length
    · have truncated : decide (100 < perFile.flatten.length) = true := decide_eq_true many
      rw [if_pos many, truncated]
      rfl
    · have whole : decide (100 < perFile.flatten.length) = false := decide_eq_false many
      have all : perFile.flatten.take 100 = perFile.flatten :=
        List.take_of_length_le (Nat.le_of_not_lt many)
      rw [if_neg many, whole, all]
  · rintro ⟨file, member, large⟩
    have unfit : ¬ files.all fits = true := by
      intro all
      exact Nat.not_le_of_lt large (of_decide_eq_true (List.all_eq_true.mp all file member))
    rw [if_neg unfit] at executed
    exact executed

/-- Two lines of a file, one of them without a terminator. -/
theorem search_complete_lines :
    let name : Posix.Name := ⟨"a", by decide, by decide, by decide, by decide⟩
    let text := "é ab ab\r\nnone\nab"
    let tree : Tree := .single name (encode text)
    let tool : SearchFilesTool := ⟨[]⟩
    let prepared := preparedCall ⟨⟨"call"⟩, "search_files", .null⟩ "search_files"
      (preparedArguments [[name]] "ab") [] false
    let context : ToolExecutionContext := ⟨⟨"thread"⟩, ⟨"turn"⟩, none, ⟨0⟩, ∅⟩
    ∃ perFile,
      List.Forall₂ (fun file found => Finds (relativePath [] file.1) "ab" file.2 found)
        [([name], text)] perFile ∧
      (evaluate EditHost.serve (tool.execute (fun _ => "") prepared context) (.start tree)).1 =
        .ok ⟨outputValue (perFile.flatten.take 100) (decide (100 < perFile.flatten.length))⟩ := by
  intro name text tree tool prepared context
  have present : ∀ file ∈ [([name], text)], tool.workspace <:+ file.1 ∧
      tree.node file.1 = some (.file (encode file.2)) := by
    intro file member
    rw [List.mem_singleton.mp member]
    exact ⟨List.nil_suffix, Tree.single_file name (encode text)⟩
  have small : ∀ file ∈ [([name], text)], (encode file.2).length ≤ 1048576 := by
    intro file member
    rw [List.mem_singleton.mp member]
    decide
  obtain ⟨perFile, finds, complete, _⟩ := search_complete (by decide : "ab" ≠ "") tree.root present
    (rfl : prepared.action.arguments = _) (fun _ => "") context
  obtain ⟨all, result⟩ := complete small
  rw [all] at finds
  exact ⟨perFile, finds, result⟩

/-- A file that is one byte too large is not searched. -/
theorem search_too_large :
    let name : Posix.Name := ⟨"a", by decide, by decide, by decide, by decide⟩
    let text := String.ofList (List.replicate 1048577 'a')
    let tree : Tree := .single name (encode text)
    let tool : SearchFilesTool := ⟨[]⟩
    let prepared := preparedCall ⟨⟨"call"⟩, "search_files", .null⟩ "search_files"
      (preparedArguments [[name]] "a") [] false
    let context : ToolExecutionContext := ⟨⟨"thread"⟩, ⟨"turn"⟩, none, ⟨0⟩, ∅⟩
    (evaluate EditHost.serve (tool.execute (fun _ => "") prepared context) (.start tree)).1 =
      .error (invalid "file exceeds 1 MiB limit") := by
  intro name text tree tool prepared context
  have present : ∀ file ∈ [([name], text)], tool.workspace <:+ file.1 ∧
      tree.node file.1 = some (.file (encode file.2)) := by
    intro file member
    rw [List.mem_singleton.mp member]
    exact ⟨List.nil_suffix, Tree.single_file name (encode text)⟩
  have length : (encode text).length = 1048577 := by
    rw [Text.encode_eq_flatMap, String.toList_ofList, List.length_flatMap, List.map_replicate,
      List.sum_replicate_nat]
    rfl
  have large : fits ([name], text) = false := by
    rw [fits, length]
    rfl
  have executed := execute_eq tree.root present (rfl : prepared.action.arguments = _) (fun _ => "")
    context
  rw [readMatches_large large, List.all_cons, large] at executed
  exact executed

end SearchFilesTool

end Nausicaa.Executor
