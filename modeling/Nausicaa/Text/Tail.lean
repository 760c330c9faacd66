import Mathlib.Algebra.GroupWithZero.Nat
import Mathlib.Data.List.Induction
import Nausicaa.Text.Slices

/-! # Tails

The longest tail of a text that fits into a number of bytes (`truncate_tail`), and what becomes of
it when a text is cut part by part (`collect_eq_iff`). -/

namespace Nausicaa.Text

/-! ## Items with weights -/

section Weights

variable {α : Type} (weight : α → Nat) (limit : Nat)

def total (items : List α) : Nat := (items.map weight).sum

/-- The longest tail with at most this weight. -/
def lastFitting : List α → List α
  | [] => []
  | item :: items => if total weight (item :: items) ≤ limit then item :: items else lastFitting items

variable {weight limit}
variable {item : α} {items first second part : List α}

@[simp] theorem total_append (first second : List α) :
    total weight (first ++ second) = total weight first + total weight second := by
  simp [total]

@[simp] theorem total_cons (item : α) (items : List α) :
    total weight (item :: items) = weight item + total weight items := by
  simp [total]

@[simp] theorem total_nil : total weight ([] : List α) = 0 := rfl

theorem total_suffix (suffix : part <:+ items) : total weight part ≤ total weight items := by
  obtain ⟨before, rfl⟩ := suffix
  rw [total_append]
  exact Nat.le_add_left _ _

variable (weight limit) in
theorem lastFitting_suffix (items : List α) : lastFitting weight limit items <:+ items := by
  induction items with
  | nil => exact List.nil_suffix
  | cons item items ih =>
    rw [lastFitting]
    split
    · exact List.suffix_rfl
    · exact ih.trans (List.suffix_cons item items)

variable (weight limit) in
theorem lastFitting_fits (items : List α) : total weight (lastFitting weight limit items) ≤ limit := by
  induction items with
  | nil => exact Nat.zero_le limit
  | cons item items ih =>
    rw [lastFitting]
    split
    next fits => exact fits
    next => exact ih

theorem lastFitting_self (fits : total weight items ≤ limit) :
    lastFitting weight limit items = items := by
  cases items with
  | nil => rfl
  | cons item items => rw [lastFitting, if_pos fits]

theorem lastFitting_longest (suffix : part <:+ items) (fits : total weight part ≤ limit) :
    part <:+ lastFitting weight limit items := by
  induction items with
  | nil => exact suffix
  | cons item items ih =>
    rw [lastFitting]
    split
    next => exact suffix
    next heavy =>
      obtain rfl | suffix := List.suffix_cons_iff.mp suffix
      · exact absurd fits heavy
      · exact ih suffix

/-- What is in front of too heavy a list is cut off. -/
theorem lastFitting_heavy (heavy : limit < total weight second) :
    lastFitting weight limit (first ++ second) = lastFitting weight limit second := by
  induction first with
  | nil => rfl
  | cons item first ih =>
    rw [List.cons_append, lastFitting, if_neg, ih]
    simp only [total_cons, total_append]
    omega

/-- What was cut off before would be cut off after. -/
theorem lastFitting_append (first second : List α) :
    lastFitting weight limit (lastFitting weight limit first ++ second) =
      lastFitting weight limit (first ++ second) := by
  induction first with
  | nil => rfl
  | cons item first ih =>
    rw [lastFitting]
    split
    next => rfl
    next heavy =>
      rw [ih, List.cons_append, lastFitting, if_neg]
      simp only [total_cons, total_append] at heavy ⊢
      omega

/-- What is in front does not show if its last item does not fit. -/
theorem lastFitting_front : lastFitting weight limit (first ++ second) =
    lastFitting weight limit second ↔
      ∀ item ∈ first.getLast?, limit < weight item + total weight second := by
  constructor
  · intro same item last
    obtain ⟨before, rfl⟩ := List.getLast?_eq_some_iff.mp last
    by_contra fits
    rw [Nat.not_lt] at fits
    have shown : item :: second <:+ lastFitting weight limit (before ++ [item] ++ second) := by
      apply lastFitting_longest
      · rw [List.append_assoc]
        exact List.suffix_append before _
      · rwa [total_cons]
    rw [same] at shown
    have short := (shown.trans (lastFitting_suffix weight limit second)).length_le
    rw [List.length_cons] at short
    omega
  · intro apart
    obtain rfl | ⟨before, item, rfl⟩ := first.eq_nil_or_concat'
    · rfl
    · have heavy := apart item (by simp)
      have excess : limit < total weight (item :: second) := by rwa [total_cons]
      rw [List.append_assoc, List.singleton_append, lastFitting_heavy excess, lastFitting,
        if_neg (Nat.not_le.mpr excess)]

theorem lastFitting_getLast? (small : ∀ item, weight item ≤ limit) (items : List α) :
    (lastFitting weight limit items).getLast? = items.getLast? := by
  obtain rfl | ⟨before, item, rfl⟩ := items.eq_nil_or_concat'
  · rfl
  · have shown : [item] <:+ lastFitting weight limit (before ++ [item]) :=
      lastFitting_longest (List.suffix_append before [item]) (by simpa using small item)
    obtain ⟨front, split⟩ := shown
    rw [← split, List.getLast?_concat, List.getLast?_concat]

/-! ## Parts that are cut one by one -/

variable (weight limit) in
/-- The tails of the parts, cut again each time. -/
def collect (parts : List (List α)) : List α :=
  parts.foldl (fun shown part =>
    lastFitting weight limit (shown ++ lastFitting weight limit part)) []

theorem collect_fits (parts : List (List α)) : total weight (collect weight limit parts) ≤ limit := by
  induction parts using List.reverseRecOn with
  | nil => exact Nat.zero_le limit
  | append_singleton parts part _ =>
    rw [collect, List.foldl_append]
    exact lastFitting_fits _ _ _

theorem collect_snoc (parts : List (List α)) (part : List α) :
    collect weight limit (parts ++ [part]) =
      lastFitting weight limit (collect weight limit parts ++ lastFitting weight limit part) := by
  simp [collect]

theorem collect_eq (parts : List (List α)) : collect weight limit parts =
    lastFitting weight limit (parts.flatMap (lastFitting weight limit)) := by
  induction parts using List.reverseRecOn with
  | nil => rfl
  | append_singleton parts part ih => rw [collect_snoc, ih, lastFitting_append, List.flatMap_append,
      List.flatMap_singleton]

theorem getLast?_flatMap (small : ∀ item, weight item ≤ limit) (parts : List (List α)) :
    (parts.flatMap (lastFitting weight limit)).getLast? = parts.flatten.getLast? := by
  induction parts using List.reverseRecOn with
  | nil => rfl
  | append_singleton parts part ih =>
    rw [List.flatMap_append, List.flatten_append, List.getLast?_append, List.getLast?_append, ih]
    simp [lastFitting_getLast? small]

theorem flatMap_light {parts : List (List α)} (light : ∀ part ∈ parts, total weight part ≤ limit) :
    parts.flatMap (lastFitting weight limit) = parts.flatten := by
  rw [List.flatten_eq_flatMap]
  exact List.flatMap_congr fun part member => lastFitting_self (light part member)

variable (weight limit) in
/-- Nothing shows in front of what should: in front of the last part that is too heavy, the item
before it does not fit, and where no part is too heavy, what was lost before them does not. -/
structure Complete (lost : List α) (parts : List (List α)) : Prop where
  heavy : ∀ before part after, parts = before ++ part :: after → limit < total weight part →
    (∀ later ∈ after, total weight later ≤ limit) → ∀ item ∈ before.flatten.getLast?,
      limit < weight item + total weight (lastFitting weight limit part ++ after.flatten)
  light : (∀ part ∈ parts, total weight part ≤ limit) → ∀ item ∈ lost.getLast?,
    limit < weight item + total weight parts.flatten

variable (weight limit) in
/-- The last part that is too heavy. -/
theorem last_heavy (parts : List (List α)) : (∀ part ∈ parts, total weight part ≤ limit) ∨
    ∃ before part after, parts = before ++ part :: after ∧ limit < total weight part ∧
      ∀ later ∈ after, total weight later ≤ limit := by
  induction parts using List.reverseRecOn with
  | nil => exact .inl (by simp)
  | append_singleton parts part ih =>
    by_cases heavy : limit < total weight part
    · exact .inr ⟨parts, part, [], rfl, heavy, by simp⟩
    · obtain light | ⟨before, part', after, rfl, heavy', light⟩ := ih
      · left
        intro other member
        obtain member | last := List.mem_append.mp member
        · exact light other member
        · rw [List.mem_singleton.mp last]
          exact Nat.le_of_not_lt heavy
      · right
        refine ⟨before, part', after ++ [part], by simp, heavy', ?_⟩
        intro later member
        obtain member | last := List.mem_append.mp member
        · exact light later member
        · rw [List.mem_singleton.mp last]
          exact Nat.le_of_not_lt heavy

theorem last_heavy_after {before before' after after' : List (List α)} {part part' : List α}
    (split : before ++ part :: after = before' ++ part' :: after')
    (heavy : limit < total weight part) (light : ∀ later ∈ after', total weight later ≤ limit) :
    ∃ between, before' = before ++ between := by
  obtain ⟨between, rfl, _⟩ | ⟨between, rfl, rest⟩ := List.append_eq_append_iff.mp split
  · exact ⟨between, rfl⟩
  · cases between with
    | nil => exact ⟨[], by simp⟩
    | cons first between =>
      obtain ⟨_, rfl⟩ := List.cons.inj rest
      exact absurd (light part (by simp)) (Nat.not_le.mpr heavy)

/-- The last part that is too heavy stands in one place only. -/
theorem last_heavy_unique {before before' after after' : List (List α)} {part part' : List α}
    (split : before ++ part :: after = before' ++ part' :: after')
    (heavy : limit < total weight part) (heavy' : limit < total weight part')
    (light : ∀ later ∈ after, total weight later ≤ limit)
    (light' : ∀ later ∈ after', total weight later ≤ limit) :
    before' = before ∧ part' = part ∧ after' = after := by
  obtain ⟨between, rfl⟩ := last_heavy_after split heavy light'
  obtain ⟨between', same⟩ := last_heavy_after split.symm heavy' light
  rw [List.append_assoc, List.self_eq_append_right, List.append_eq_nil_iff] at same
  obtain ⟨rfl, rfl⟩ := same
  rw [List.append_nil] at split
  obtain ⟨rfl, rfl⟩ := List.cons.inj (List.append_cancel_left split)
  exact ⟨by simp, rfl, rfl⟩

/-- The parts show the tail of the whole, in front of which something was lost, if and only if
nothing shows in front of what should. -/
theorem collect_eq_iff (small : ∀ item, weight item ≤ limit) (lost : List α)
    (parts : List (List α)) : collect weight limit parts =
      lastFitting weight limit (lost ++ parts.flatten) ↔ Complete weight limit lost parts := by
  rw [collect_eq]
  obtain light | ⟨before, part, after, rfl, heavy, light⟩ :=
    last_heavy weight limit parts
  · rw [flatMap_light light, eq_comm, lastFitting_front]
    constructor
    · intro apart
      refine ⟨?_, fun _ => apart⟩
      rintro before part after rfl heavy
      exact absurd (light part (by simp)) (Nat.not_le.mpr heavy)
    · intro complete
      exact complete.light light
  · have whole : lastFitting weight limit (lost ++ (before ++ part :: after).flatten) =
        lastFitting weight limit (lastFitting weight limit part ++ after.flatten) := by
      have excess : limit < total weight (part ++ after.flatten) := by
        rw [total_append]
        omega
      rw [List.flatten_append, List.flatten_cons, ← List.append_assoc, lastFitting_heavy excess,
        lastFitting_append]
    have shown : (before ++ part :: after).flatMap (lastFitting weight limit) =
        before.flatMap (lastFitting weight limit) ++
          (lastFitting weight limit part ++ after.flatten) := by
      rw [List.flatMap_append, List.flatMap_cons, flatMap_light light]
    rw [whole, shown, lastFitting_front, getLast?_flatMap small]
    constructor
    · intro apart
      constructor
      · intro before' part' after' split heavy' light'
        obtain ⟨rfl, rfl, rfl⟩ := last_heavy_unique split heavy heavy' light light'
        exact apart
      · intro all
        exact absurd (all part (by simp)) (Nat.not_le.mpr heavy)
    · intro complete
      exact complete.heavy before part after rfl heavy light

end Weights

/-! ## Tails of parts -/

section Tails

variable {α : Type}

/-- A list consists of tails of the parts, in their order. -/
inductive Tails : List (List α) → List α → Prop
  | nil : Tails [] []
  | cons {part tail shown : List α} {parts : List (List α)} : tail <:+ part → Tails parts shown →
    Tails (part :: parts) (tail ++ shown)

variable {parts parts' : List (List α)} {shown shown' : List α}

theorem tails_nil (parts : List (List α)) : Tails parts [] := by
  induction parts with
  | nil => exact .nil
  | cons part parts ih => exact .cons List.nil_suffix ih

theorem tails_singleton {part : List α} (suffix : shown <:+ part) : Tails [part] shown := by
  have single := Tails.cons suffix .nil
  rwa [List.append_nil] at single

theorem Tails.append (first : Tails parts shown) (second : Tails parts' shown') :
    Tails (parts ++ parts') (shown ++ shown') := by
  induction first with
  | nil => exact second
  | cons suffix _ ih =>
    rw [List.cons_append, List.append_assoc]
    exact .cons suffix ih

theorem Tails.later (holds : Tails parts shown) (parts' : List (List α)) :
    Tails (parts ++ parts') shown := by
  have appended := holds.append (tails_nil parts')
  rwa [List.append_nil] at appended

theorem Tails.suffix (holds : Tails parts shown) (suffix : shown' <:+ shown) : Tails parts shown' := by
  induction holds generalizing shown' with
  | nil =>
    rw [List.suffix_nil.mp suffix]
    exact .nil
  | @cons part tail shown parts inside rest ih =>
    obtain ⟨cut, split⟩ := suffix
    obtain ⟨between, whole, rest'⟩ | ⟨between, whole, rest'⟩ := List.append_eq_append_iff.mp split
    · -- The cut is inside the first tail.
      subst rest'
      exact .cons (List.IsSuffix.trans ⟨cut, whole.symm⟩ inside) rest
    · exact .cons List.nil_suffix (ih ⟨between, rest'.symm⟩)

end Tails

/-! ## Texts -/

/-- The bytes of a character. -/
def width (char : Char) : Nat := (String.utf8EncodeChar char).length

/-- `while !text.is_char_boundary(start) { start += 1; }` -/
def ceilBoundary (text : String) (start : Nat) : Nat :=
  if start < (encode text).length ∧ isCharBoundary text start = false then
    ceilBoundary text (start + 1)
  else start
termination_by (encode text).length - start

/-- The text from the first boundary on from which at most `limit` bytes are left. -/
def truncate (limit : Nat) (text : String) : String :=
  let length := (encode text).length
  if limit < length then slice text (ceilBoundary text (length - limit)) length else text

theorem total_width (chars : List Char) :
    total width chars = (encode (String.ofList chars)).length := by
  rw [encode_eq_flatMap, String.toList_ofList, List.length_flatMap]
  rfl

theorem ceilBoundary_spec (text : String) (start : Nat) (inside : start ≤ (encode text).length) :
    start ≤ ceilBoundary text start ∧ isCharBoundary text (ceilBoundary text start) = true ∧
      ∀ offset, start ≤ offset → isCharBoundary text offset = true →
        ceilBoundary text start ≤ offset := by
  induction start using ceilBoundary.induct text with
  | case1 start between ih =>
    rw [ceilBoundary, if_pos between]
    obtain ⟨later, boundary, least⟩ := ih (by omega)
    refine ⟨by omega, boundary, ?_⟩
    intro offset after found
    obtain rfl | after := Nat.eq_or_lt_of_le after
    · rw [between.2] at found
      cases found
    · exact least offset after found
  | case2 start stops =>
    rw [ceilBoundary, if_neg stops]
    refine ⟨Nat.le_refl start, ?_, fun offset after _ => after⟩
    by_cases last : start = (encode text).length
    · have whole := isCharBoundary_length text ""
      rw [String.append_empty] at whole
      rwa [last]
    · by_contra inner
      exact stops ⟨by omega, by simpa using inner⟩

theorem width_pos (char : Char) : 0 < width char :=
  List.length_pos_of_ne_nil String.utf8EncodeChar_ne_nil

theorem total_width_eq_zero {chars : List Char} (empty : total width chars = 0) : chars = [] := by
  cases chars with
  | nil => rfl
  | cons char chars =>
    have filled := width_pos char
    rw [total_cons] at empty
    omega

theorem truncate_tail (limit : Nat) (text : String) :
    (truncate limit text).toList = lastFitting width limit text.toList := by
  rw [truncate]
  by_cases long : limit < (encode text).length
  · rw [if_pos long]
    obtain ⟨after, boundary, least⟩ := ceilBoundary_spec text ((encode text).length - limit)
      (Nat.sub_le _ _)
    obtain ⟨before, rest, rfl, length⟩ := isCharBoundary_iff.mp boundary
    rw [← length, slice_after]
    have bytes : ∀ before after : String, (encode (before ++ after)).length =
        (encode before).length + total width after.toList := by
      intro before after
      rw [length_encode_append, total_width, String.ofList_toList]
    have fits : total width rest.toList ≤ limit := by
      have parts := bytes before rest
      omega
    have shown : rest.toList <:+ lastFitting width limit (before ++ rest).toList := by
      apply lastFitting_longest _ fits
      rw [String.toList_append]
      exact List.suffix_append _ _
    obtain ⟨front, split⟩ := lastFitting_suffix width limit
      (before ++ rest).toList
    obtain ⟨more, extends'⟩ := shown
    -- The cut in front of what fits is a boundary, and not before the one that was found.
    have cut : before ++ rest =
        String.ofList front ++ String.ofList (lastFitting width limit (before ++ rest).toList) := by
      rw [← String.ofList_append, split, String.ofList_toList]
    have far : (encode before).length ≤ (encode (String.ofList front)).length := by
      rw [length]
      apply least
      · have parts := bytes (String.ofList front)
          (String.ofList (lastFitting width limit (before ++ rest).toList))
        rw [← cut, String.toList_ofList] at parts
        have room := lastFitting_fits width limit (before ++ rest).toList
        omega
      · rw [cut]
        exact isCharBoundary_length _ _
    have none : more = [] := by
      apply total_width_eq_zero
      have first := bytes before rest
      have second := bytes (String.ofList front)
        (String.ofList (lastFitting width limit (before ++ rest).toList))
      rw [← cut, String.toList_ofList, ← extends', total_append] at second
      omega
    rw [← extends', none, List.nil_append]
  · rw [if_neg long, lastFitting_self]
    rw [total_width, String.ofList_toList]
    exact Nat.le_of_not_lt long

/-- A part of a text is its longest tail with at most `limit` bytes. -/
structure IsTail (limit : Nat) (text part : String) : Prop where
  tail : ∃ before, text = before ++ part
  fits : (encode part).length ≤ limit
  longest : ∀ before part', text = before ++ part' → (encode part').length ≤ limit →
    (encode part').length ≤ (encode part).length

theorem isTail_iff {limit : Nat} {text part : String} :
    IsTail limit text part ↔ part.toList = lastFitting width limit text.toList := by
  have bytes : ∀ text : String, (encode text).length = total width text.toList := by
    intro text
    rw [total_width, String.ofList_toList]
  have cuts : ∀ chars, chars <:+ text.toList → ∃ before, text = before ++ String.ofList chars := by
    rintro chars ⟨before, split⟩
    refine ⟨String.ofList before, ?_⟩
    rw [← String.ofList_append, split, String.ofList_toList]
  constructor
  · intro tail
    obtain ⟨before, split⟩ := tail.tail
    have suffix : part.toList <:+ text.toList := by
      rw [split, String.toList_append]
      exact List.suffix_append _ _
    have fits : total width part.toList ≤ limit := by
      rw [← bytes]
      exact tail.fits
    obtain ⟨more, extends'⟩ := lastFitting_longest suffix fits
    obtain ⟨before', split'⟩ := cuts _ (lastFitting_suffix width limit _)
    have short := tail.longest before' _ split' (by
      rw [← total_width]
      exact lastFitting_fits _ _ _)
    rw [← total_width, bytes, ← extends', total_append] at short
    have none : more = [] := total_width_eq_zero (by omega)
    rw [← extends', none, List.nil_append]
  · intro same
    constructor
    · obtain ⟨before, split⟩ := cuts _ (lastFitting_suffix width limit _)
      rw [← same, String.ofList_toList] at split
      exact ⟨before, split⟩
    · rw [bytes, same]
      exact lastFitting_fits _ _ _
    · intro before part' split fits
      rw [bytes, bytes, same]
      apply total_suffix
      apply lastFitting_longest
      · rw [split, String.toList_append]
        exact List.suffix_append _ _
      · rwa [← bytes]

end Nausicaa.Text
