import Nausicaa.Text.Slices

/-! # Texts in pages

A page shows as many whole characters as fit.  A reader that goes on where each page ended has
read the text when it comes to the last one (`follow_reads`), whoever gives it these pages
(`Pages.of_pageAt`). -/

namespace Nausicaa.Text

structure Page where
  text : String
  next : Nat
  last : Bool
  deriving DecidableEq

/-- The page at an offset; inside a character and behind the text there is none. -/
def pageAt (text : String) (limit offset : Nat) : Option Page :=
  if isCharBoundary text offset then
    let stop := floorBoundary text (min (offset + limit) (encode text).length)
    some ⟨slice text offset stop, stop, stop = (encode text).length⟩
  else none

/-- The pages from an offset on, each with its own, up to the last one. -/
def follow (pager : Nat → Option Page) : (fuel : Nat) → (offset : Nat) → Option (List (Nat × Page))
  | 0, _ => none
  | fuel + 1, offset =>
    match pager offset with
    | none => none
    | some page =>
      if page.last then some [(offset, page)]
      else (follow pager fuel page.next).map ((offset, page) :: ·)

/-- Some pages show a part of a text up to its end. -/
structure Shows (text part : String) (limit : Nat) (pages : List (Nat × Page)) : Prop where
  whole : String.join (pages.map fun page => page.2.text) = part
  bounded : ∀ page ∈ pages, (encode page.2.text).length ≤ limit
  advances : ∀ page ∈ pages, page.1 < (encode text).length → page.1 < page.2.next
  ends : ∀ page ∈ pages, page.2.last = true ↔ page.2.next = (encode text).length
  final : ∃ front page, pages = front ++ [page] ∧ page.2.last = true ∧
    ∀ earlier ∈ front, earlier.2.last = false

variable {text read rest : String} {limit offset : Nat}

theorem pageAt_none : pageAt text limit offset = none ↔ isCharBoundary text offset = false := by
  rw [pageAt]
  cases isCharBoundary text offset with
  | true => simp
  | false => simp

/-- Of two cuts of a text one is in front of the other. -/
theorem cut_cases {before after before' after' : String}
    (same : before ++ after = before' ++ after') :
    (encode before').length ≤ (encode before).length ∨
      ∃ between, before' = before ++ between ∧ after = between ++ after' := by
  have split := congrArg String.toList same
  rw [String.toList_append, String.toList_append] at split
  obtain ⟨more, front, back⟩ | ⟨more, front, _⟩ := List.append_eq_append_iff.mp split
  · right
    refine ⟨String.ofList more, ?_, ?_⟩
    · rw [← String.toList_inj, front]
      simp
    · rw [← String.toList_inj, back]
      simp
  · left
    rw [length_encode, length_encode]
    exact utf8ByteSize_le ⟨more, front.symm⟩

/-- The page behind a part of a text shows the next characters, at least one if there is one.  These
are what decoding `limit` bytes finds to be whole. -/
theorem pageAt_cut (read rest : String) (limit : Nat) : ∃ before after, rest = before ++ after ∧
    (encode before).length ≤ limit ∧ (4 ≤ limit → rest ≠ "" → before ≠ "") ∧
    pageAt (read ++ rest) limit (encode read).length =
      some ⟨before, (encode (read ++ before)).length,
        (encode (read ++ before)).length = (encode (read ++ rest)).length⟩ ∧
    encode before <+: (encode rest).take limit ∧
    (fromUtf8 ((encode rest).take limit) = .ok before ∨
      fromUtf8 ((encode rest).take limit) = .error ⟨(encode before).length, none⟩ ∧
        limit < (encode rest).length) := by
  obtain ⟨before, after, rfl, progress, begins, last, decoded⟩ := fromUtf8_take rest limit
  have room : (encode before).length ≤ limit := by
    have short := begins.length_le
    rw [List.length_take] at short
    omega
  refine ⟨before, after, rfl, room, progress, ?_, begins, decoded⟩
  have stops : floorBoundary (read ++ before ++ after)
      (min ((encode read).length + limit) (encode (read ++ before ++ after)).length) =
      (encode (read ++ before)).length := by
    apply floorBoundary_eq
    · rw [length_encode_append (read ++ before), length_encode_append read]
      omega
    · intro before' after' same room'
      rw [String.append_assoc] at same
      obtain short | ⟨between, rfl, split⟩ := cut_cases same
      · rw [length_encode_append]
        omega
      · rw [length_encode_append read between] at room' ⊢
        have far := last between after' split (by omega)
        rw [length_encode_append]
        omega
  rw [← String.append_assoc, pageAt, String.append_assoc, if_pos (isCharBoundary_length _ _),
    ← String.append_assoc]
  dsimp only
  rw [stops, slice_append]

/-- What is read from a cut on is the rest of the text. -/
theorem follow_rest (bounded : 4 ≤ limit) (read rest : String) {fuel : Nat}
    (enough : (encode rest).length < fuel) :
    ∃ pages, follow (pageAt (read ++ rest) limit) fuel (encode read).length = some pages ∧
      Shows (read ++ rest) rest limit pages := by
  induction fuel generalizing read rest with
  | zero => cases enough
  | succ fuel ih =>
    obtain ⟨before, after, rfl, room, progress, page, _⟩ := pageAt_cut read rest limit
    rw [follow, page]
    dsimp only
    have total : (encode (read ++ (before ++ after))).length =
        (encode (read ++ before)).length + (encode after).length := by
      rw [← String.append_assoc, length_encode_append]
    have next : (encode (read ++ before)).length = (encode read).length + (encode before).length :=
      length_encode_append _ _
    have forward : (encode read).length < (encode (read ++ (before ++ after))).length →
        (encode read).length < (encode (read ++ before)).length := by
      intro inside
      have filled : before ≠ "" := by
        apply progress bounded
        intro none
        rw [none, String.append_empty] at inside
        exact Nat.lt_irrefl _ inside
      have some_before := List.length_pos_of_ne_nil (mt encode_eq_nil.mp filled)
      omega
    by_cases last : (encode (read ++ before)).length = (encode (read ++ (before ++ after))).length
    · have done : after = "" := by
        apply encode_eq_nil.mp
        apply List.eq_nil_of_length_eq_zero
        omega
      simp only [last, decide_true, if_true]
      refine ⟨_, rfl, ?_⟩
      constructor
      · simp [String.join, done]
      · simpa using room
      · intro page member
        rw [List.mem_singleton.mp member, ← last]
        exact fun inside => forward (last ▸ inside)
      · simp
      · exact ⟨[], _, rfl, rfl, by simp⟩
    · simp only [last, decide_false, Bool.false_eq_true, if_false]
      have some_before := forward (by omega)
      have shorter : (encode after).length < fuel := by
        rw [length_encode_append] at enough
        omega
      obtain ⟨pages, shown, shows⟩ := ih (read ++ before) after shorter
      rw [String.append_assoc] at shown shows
      rw [shown]
      refine ⟨_ :: pages, rfl, ?_⟩
      constructor
      · rw [List.map_cons, String.join_cons, shows.whole]
      · exact List.forall_mem_cons.mpr ⟨room, shows.bounded⟩
      · exact List.forall_mem_cons.mpr ⟨forward, shows.advances⟩
      · exact List.forall_mem_cons.mpr ⟨by simp [last], shows.ends⟩
      · obtain ⟨front, page, rfl, final, earlier⟩ := shows.final
        exact ⟨_ :: front, page, rfl, final, List.forall_mem_cons.mpr ⟨rfl, earlier⟩⟩

/-- A reader that goes on from the start to the last page reads the text. -/
theorem follow_reads (bounded : 4 ≤ limit) (text : String) :
    ∃ pages, follow (pageAt text limit) ((encode text).length + 1) 0 = some pages ∧
      Shows text text limit pages := by
  have reads := follow_rest bounded "" text (Nat.lt_succ_self _)
  rwa [String.empty_append, encode_empty, List.length_nil] at reads

/-- A pager that gives the pages of a text and fails where there is none: behind the text and inside
its characters.  A reader that follows it from the start reads the text. -/
structure Pages (text : String) (limit : Nat) (pager : Nat → Option Page) (fails : Nat → Prop) :
    Prop where
  same : ∀ offset, pager offset = pageAt text limit offset
  fails : ∀ offset, fails offset ↔ ¬ ∃ before after, text = before ++ after ∧
    (encode before).length = offset
  reads : ∃ pages, follow pager ((encode text).length + 1) 0 = some pages ∧
    Shows text text limit pages

theorem Pages.of_pageAt {pager : Nat → Option Page} {fails : Nat → Prop} (bounded : 4 ≤ limit)
    (given : ∀ offset, pager offset = pageAt text limit offset ∧
      (fails offset ↔ pageAt text limit offset = none)) : Pages text limit pager fails where
  same offset := (given offset).1
  fails offset := by
    rw [(given offset).2, pageAt_none, ← isCharBoundary_iff, Bool.not_eq_true]
  reads := by
    rw [show pager = pageAt text limit from funext fun offset => (given offset).1]
    exact follow_reads bounded text

end Nausicaa.Text
