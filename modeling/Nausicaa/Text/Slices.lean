import Nausicaa.Text.Validation

/-! # Slices of texts

Parts of a text by the offsets of their bytes, as `str` has them.  An offset is a boundary where
the text can be cut in two (`isCharBoundary_iff`), a text that is not empty occurs only at such
offsets (`occursAt_iff`), and `find` gives the first of them (`find_some`, `find_none`). -/

namespace Nausicaa.Text

variable {text part before after : String} {offset : Nat}

/-! ## Boundaries -/

/-- `str::is_char_boundary`. -/
def isCharBoundary (text : String) (offset : Nat) : Bool :=
  match (encode text)[offset]? with
  | some byte => !isContinuation byte
  | none => decide (offset = (encode text).length)

/-- `&text[start..stop]` for two boundaries; elsewhere the slice panics. -/
def slice (text : String) (start stop : Nat) : String :=
  (decode (((encode text).drop start).take (stop - start))).getD ""

/-- `String::replace_range`. -/
def replaceRange (text : String) (start stop : Nat) (part : String) : String :=
  slice text 0 start ++ part ++ slice text stop (encode text).length

theorem length_encode_append (left right : String) :
    (encode (left ++ right)).length = (encode left).length + (encode right).length := by
  rw [encode_append, List.length_append]

theorem encode_eq_nil : encode text = [] ↔ text = "" := by
  constructor
  · intro empty
    exact encode_inj (empty.trans encode_empty.symm)
  · rintro rfl
    exact encode_empty

/-- The first byte of a character does not continue one. -/
theorem isContinuation_first {char : Char} {first : UInt8} {more : List UInt8}
    (bytes : String.utf8EncodeChar char = first :: more) : isContinuation first = false := by
  obtain ⟨first', more', bytes', width, _⟩ := utf8EncodeChar_bytes char
  rw [bytes] at bytes'
  obtain ⟨rfl, rfl⟩ := List.cons.inj bytes'
  cases continues : isContinuation first with
  | false => rfl
  | true =>
    have range := of_decide_eq_true continues
    have none : utf8Width first = 0 := by
      rw [utf8Width, if_neg (by omega), if_neg (by omega), if_neg (by omega), if_neg (by omega)]
    omega

theorem isContinuation_second {first second : UInt8} (follows : utf8Follows first second = true) :
    isContinuation second = true := by
  obtain ⟨atLeast, atMost⟩ := of_decide_eq_true follows
  apply decide_eq_true
  constructor
  · refine Nat.le_trans ?_ atLeast
    split
    · decide
    · split <;> decide
  · refine Nat.le_trans atMost ?_
    split
    · decide
    · split <;> decide

theorem isContinuation_more {char : Char} {first : UInt8} {more : List UInt8}
    (bytes : String.utf8EncodeChar char = first :: more) {byte : UInt8} (member : byte ∈ more) :
    isContinuation byte = true := by
  obtain ⟨first', more', bytes', _, follows⟩ := utf8EncodeChar_bytes char
  rw [bytes] at bytes'
  obtain ⟨rfl, rfl⟩ := List.cons.inj bytes'
  cases more with
  | nil => cases member
  | cons second tail =>
    obtain ⟨second_follows, continues⟩ := follows second tail rfl
    obtain rfl | later := List.mem_cons.mp member
    · exact isContinuation_second second_follows
    · exact continues byte later

theorem isContinuation_head {first : UInt8} {rest : List UInt8} (bytes : encode text = first :: rest) :
    isContinuation first = false := by
  rw [encode_eq_flatMap] at bytes
  cases chars : text.toList with
  | nil => rw [chars] at bytes; cases bytes
  | cons char more =>
    obtain ⟨first', more', encoded, _⟩ := utf8EncodeChar_bytes char
    rw [chars, List.flatMap_cons, encoded, List.cons_append] at bytes
    obtain ⟨rfl, _⟩ := List.cons.inj bytes
    exact isContinuation_first encoded

theorem boundary_chars (chars : List Char) {offset : Nat}
    (inside : offset ≤ (chars.flatMap String.utf8EncodeChar).length)
    (begins : ∀ byte, (chars.flatMap String.utf8EncodeChar)[offset]? = some byte →
      isContinuation byte = false) :
    ∃ before after, chars = before ++ after ∧
      (before.flatMap String.utf8EncodeChar).length = offset := by
  induction chars generalizing offset with
  | nil => exact ⟨[], [], rfl, (Nat.le_zero.mp inside).symm⟩
  | cons char chars ih =>
    obtain ⟨first, more, bytes, _⟩ := utf8EncodeChar_bytes char
    rw [List.flatMap_cons] at inside begins
    by_cases start : offset = 0
    · exact ⟨[], char :: chars, rfl, start.symm⟩
    · by_cases within : offset < (String.utf8EncodeChar char).length
      · -- Behind its first byte a character has no boundary.
        have member : (String.utf8EncodeChar char)[offset] ∈ more := by
          obtain ⟨index, rfl⟩ := Nat.exists_eq_succ_of_ne_zero start
          simp [bytes]
        have none := begins _ (by
          rw [List.getElem?_append_left within, List.getElem?_eq_getElem within])
        rw [isContinuation_more bytes member] at none
        cases none
      · rw [List.length_append] at inside
        rw [List.getElem?_append_right (by omega)] at begins
        obtain ⟨before, after, rfl, length⟩ := ih (by omega) begins
        refine ⟨char :: before, after, rfl, ?_⟩
        rw [List.flatMap_cons, List.length_append]
        omega

theorem isCharBoundary_length (before after : String) :
    isCharBoundary (before ++ after) (encode before).length = true := by
  rw [isCharBoundary, encode_append, List.getElem?_append_right (Nat.le_refl _), Nat.sub_self]
  cases bytes : encode after with
  | nil => simp
  | cons first rest => simp [isContinuation_head bytes]

/-- A boundary is where the text can be cut. -/
theorem isCharBoundary_iff : isCharBoundary text offset = true ↔
    ∃ before after, text = before ++ after ∧ (encode before).length = offset := by
  constructor
  · intro boundary
    have places : offset ≤ (text.toList.flatMap String.utf8EncodeChar).length ∧
        ∀ byte, (text.toList.flatMap String.utf8EncodeChar)[offset]? = some byte →
          isContinuation byte = false := by
      rw [isCharBoundary, encode_eq_flatMap] at boundary
      split at boundary
      next byte found =>
        constructor
        · exact Nat.le_of_lt (List.getElem?_eq_some_iff.mp found).1
        · intro byte' found'
          rw [found] at found'
          cases found'
          simpa using boundary
      next none =>
        constructor
        · exact Nat.le_of_eq (of_decide_eq_true boundary)
        · intro byte found
          rw [none] at found
          cases found
    obtain ⟨before, after, split, length⟩ := boundary_chars text.toList places.1 places.2
    refine ⟨String.ofList before, String.ofList after, ?_, ?_⟩
    · rw [← String.toList_inj, split]
      simp
    · rw [encode_ofList, length]
  · rintro ⟨before, after, rfl, rfl⟩
    exact isCharBoundary_length before after

theorem slice_append (before part after : String) :
    slice (before ++ part ++ after) (encode before).length (encode (before ++ part)).length =
      part := by
  have here : (encode before).length + (encode part).length - (encode before).length =
      (encode part).length := by omega
  rw [slice, length_encode_append, here, String.append_assoc, encode_append, List.drop_left,
    encode_append, List.take_left, decode_encode]
  rfl

theorem slice_before (before after : String) :
    slice (before ++ after) 0 (encode before).length = before := by
  have start := slice_append "" before after
  rwa [encode_empty, List.length_nil, String.empty_append] at start

theorem slice_after (before after : String) :
    slice (before ++ after) (encode before).length (encode (before ++ after)).length = after := by
  have stop := slice_append before after ""
  rwa [String.append_empty] at stop

theorem replaceRange_append (before old after new : String) :
    replaceRange (before ++ old ++ after) (encode before).length (encode (before ++ old)).length new =
      before ++ new ++ after := by
  rw [replaceRange, slice_after (before ++ old) after, @String.append_assoc before,
    slice_before]

/-- `while !text.is_char_boundary(stop) { stop -= 1; }`. -/
def floorBoundary (text : String) : (stop : Nat) → Nat
  | 0 => 0
  | stop + 1 => if isCharBoundary text (stop + 1) then stop + 1 else floorBoundary text stop

/-- The last cut that is not behind `stop`. -/
theorem floorBoundary_eq {stop : Nat} (room : (encode before).length ≤ stop)
    (last : ∀ before' after', before ++ after = before' ++ after' →
      (encode before').length ≤ stop → (encode before').length ≤ (encode before).length) :
    floorBoundary (before ++ after) stop = (encode before).length := by
  induction stop with
  | zero =>
    rw [floorBoundary]
    omega
  | succ stop ih =>
    rw [floorBoundary]
    split
    next boundary =>
      obtain ⟨before', after', split, length⟩ := isCharBoundary_iff.mp boundary
      have far := last before' after' split (Nat.le_of_eq length)
      omega
    next inside =>
      have short : (encode before).length ≤ stop := by
        by_contra long
        have here : (encode before).length = stop + 1 := by omega
        apply inside
        rw [← here]
        exact isCharBoundary_length before after
      apply ih short
      intro before' after' split room'
      exact last before' after' split (Nat.le_succ_of_le room')

/-! ## Occurrences -/

/-- The bytes of the part stand in the text from the offset on. -/
def OccursAt (text part : String) (offset : Nat) : Prop :=
  encode part <+: (encode text).drop offset

instance : Decidable (OccursAt text part offset) := by
  unfold OccursAt
  infer_instance

theorem toList_prefix_of_encode (begins : encode part <+: encode text) :
    part.toList <+: text.toList := by
  obtain ⟨more, bytes⟩ := begins
  have whole : decode (encode part ++ more) = some text := by rw [bytes, decode_encode]
  exact prefix_of_decode (decode_encode part) whole

/-- Characters of a text do not begin inside others, so that a part is found between two cuts. -/
theorem occursAt_iff (filled : part ≠ "") : OccursAt text part offset ↔
    ∃ before after, text = before ++ part ++ after ∧ (encode before).length = offset := by
  constructor
  · intro occurs
    have boundary : isCharBoundary text offset = true := by
      cases bytes : encode part with
      | nil => exact absurd (encode_eq_nil.mp bytes) filled
      | cons first rest =>
        obtain ⟨more, shown⟩ := occurs
        have found : (encode text)[offset]? = some first := by
          rw [← Nat.add_zero offset, ← List.getElem?_drop, ← shown, bytes]
          rfl
        rw [isCharBoundary, found]
        simp [isContinuation_head bytes]
    obtain ⟨before, rest, rfl, rfl⟩ := isCharBoundary_iff.mp boundary
    rw [OccursAt, encode_append, List.drop_left] at occurs
    obtain ⟨after, split⟩ := toList_prefix_of_encode occurs
    refine ⟨before, String.ofList after, ?_, rfl⟩
    rw [String.append_assoc, ← String.toList_inj, String.toList_append, ← split]
    simp
  · rintro ⟨before, after, rfl, rfl⟩
    rw [OccursAt, String.append_assoc, encode_append, List.drop_left, encode_append]
    exact List.prefix_append _ _

/-- Where the part begins in the characters, behind `offset` bytes of others. -/
def findFrom (part : List Char) : (offset : Nat) → List Char → Option Nat
  | offset, [] => if part = [] then some offset else none
  | offset, char :: rest =>
    if part <+: char :: rest then some offset
    else findFrom part (offset + char.utf8Size) rest

/-- `str::find`. -/
def find (text part : String) : Option Nat := findFrom part.toList 0 text.toList

theorem findFrom_some {part chars : List Char} {base : Nat}
    (found : findFrom part base chars = some offset) :
    ∃ before after, chars = before ++ part ++ after ∧
      base + (before.flatMap String.utf8EncodeChar).length = offset ∧
      ∀ before' after', chars = before' ++ part ++ after' → before <+: before' := by
  induction chars generalizing base with
  | nil =>
    rw [findFrom] at found
    split at found
    next empty =>
      cases found
      exact ⟨[], [], by simp [empty], rfl, fun _ _ _ => List.nil_prefix⟩
    next => cases found
  | cons char rest ih =>
    rw [findFrom] at found
    split at found
    next begins =>
      cases found
      obtain ⟨after, split⟩ := begins
      exact ⟨[], after, by simp [split], rfl, fun _ _ _ => List.nil_prefix⟩
    next elsewhere =>
      obtain ⟨before, after, rfl, length, first⟩ := ih found
      refine ⟨char :: before, after, by simp, ?_, ?_⟩
      · rw [List.flatMap_cons, List.length_append, String.length_utf8EncodeChar]
        omega
      · intro before' after' split
        cases before' with
        | nil => exact absurd ⟨after', split.symm⟩ elsewhere
        | cons char' before' =>
          obtain ⟨rfl, tails⟩ := List.cons.inj split
          exact (List.prefix_cons_inj _).mpr (first before' after' tails)

theorem findFrom_none {part chars : List Char} {base : Nat}
    (missed : findFrom part base chars = none) (before after : List Char) :
    chars ≠ before ++ part ++ after := by
  induction chars generalizing base before with
  | nil =>
    rw [findFrom] at missed
    split at missed
    next => cases missed
    next filled =>
      intro split
      exact filled (List.append_eq_nil_iff.mp (List.append_eq_nil_iff.mp split.symm).1).2
  | cons char rest ih =>
    rw [findFrom] at missed
    split at missed
    next => cases missed
    next elsewhere =>
      intro split
      cases before with
      | nil => exact elsewhere ⟨after, split.symm⟩
      | cons char' before =>
        obtain ⟨rfl, tails⟩ := List.cons.inj split
        exact ih missed before tails

/-- What is found is the first of all occurrences. -/
theorem find_cut (found : find text part = some offset) :
    ∃ before after, text = before ++ part ++ after ∧ (encode before).length = offset ∧
      ∀ before' after', text = before' ++ part ++ after' → before.toList <+: before'.toList := by
  obtain ⟨before, after, split, length, first⟩ := findFrom_some found
  refine ⟨String.ofList before, String.ofList after, ?_, ?_, ?_⟩
  · rw [← String.toList_inj, split]
    simp
  · rw [encode_ofList]
    omega
  · intro before' after' split'
    rw [String.toList_ofList]
    apply first before'.toList after'.toList
    rw [split', String.toList_append, String.toList_append]

theorem find_none (filled : part ≠ "") :
    find text part = none ↔ ∀ offset, ¬ OccursAt text part offset := by
  constructor
  · intro missed offset occurs
    obtain ⟨before, after, split, _⟩ := (occursAt_iff filled).mp occurs
    apply findFrom_none missed before.toList after.toList
    rw [split, String.toList_append, String.toList_append]
  · intro absent
    cases found : find text part with
    | none => rfl
    | some offset =>
      obtain ⟨before, after, split, length, _⟩ := find_cut found
      exact absurd ((occursAt_iff filled).mpr ⟨before, after, split, length⟩) (absent offset)

theorem find_some (filled : part ≠ "") : find text part = some offset ↔
    OccursAt text part offset ∧ ∀ other, OccursAt text part other → offset ≤ other := by
  have leads {offset : Nat} (found : find text part = some offset) :
      OccursAt text part offset ∧ ∀ other, OccursAt text part other → offset ≤ other := by
    obtain ⟨before, after, split, length, first⟩ := find_cut found
    refine ⟨(occursAt_iff filled).mpr ⟨before, after, split, length⟩, ?_⟩
    intro other occurs
    obtain ⟨before', after', split', length'⟩ := (occursAt_iff filled).mp occurs
    rw [← length, ← length', length_encode, length_encode]
    exact utf8ByteSize_le (first before' after' split')
  constructor
  · exact leads
  · rintro ⟨occurs, least⟩
    cases found : find text part with
    | none => exact absurd occurs ((find_none filled).mp found offset)
    | some offset' =>
      obtain ⟨occurs', least'⟩ := leads found
      exact congrArg some (Nat.le_antisymm (least' _ occurs) (least _ occurs'))

end Nausicaa.Text
