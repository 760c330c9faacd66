import Mathlib.Algebra.Group.Nat.Defs
import Mathlib.Data.List.Lex
import Mathlib.Data.Nat.Basic

/-! # Hexadecimal numbers as text

Numbers without leading zeros, each ended by an underscore, are compared as texts (`hex_lt`).  Numbers
of one length come in their order (`HexBefore.of_lt`); a shorter one does not come before a longer one
unless its digits do, where an underscore stands between the digits and the letters. -/

namespace Nausicaa.Text

def hexLength (value : Nat) : Nat := (Nat.toDigits 16 value).length

/-- The text of the first number comes before that of the second one. -/
def HexBefore (first second : Nat) : Prop :=
  let more := hexLength second - hexLength first
  let less := hexLength first - hexLength second
  first / 16 ^ less < second / 16 ^ more ∨
    first / 16 ^ less = second / 16 ^ more ∧
      (0 < more ∧ 10 ≤ second / 16 ^ (more - 1) % 16 ∨
        0 < less ∧ first / 16 ^ (less - 1) % 16 < 10)

instance (first second : Nat) : Decidable (HexBefore first second) := by
  unfold HexBefore
  infer_instance

section Order

variable {first second count digit : Nat} {left right : List Char}

theorem append_lt_append {before before' : List Char} (same : before.length = before'.length) :
    before ++ left < before' ++ right ↔ before < before' ∨ before = before' ∧ left < right := by
  induction before generalizing before' with
  | nil =>
    rw [List.length_nil, eq_comm, List.length_eq_zero_iff] at same
    simp [same]
  | cons char before ih =>
    cases before' with
    | nil => simp at same
    | cons char' before' =>
      have rest := ih (by simpa using same : before.length = before'.length)
      simp only [List.cons_append, List.cons_lt_cons_iff, rest, List.cons.injEq]
      tauto

theorem append_left_lt {before : List Char} :
    before ++ left < before ++ right ↔ left < right := by
  simp [append_lt_append]

theorem hexLength_le {count : Nat} (some : 0 < count) :
    hexLength first ≤ count ↔ first < 16 ^ count :=
  Nat.length_toDigits_le_iff (by decide) some

theorem hexLength_le_one : hexLength first ≤ 1 ↔ first < 16 := by
  simpa using (hexLength_le Nat.one_pos : hexLength first ≤ 1 ↔ _)

theorem hexLength_pos : 0 < hexLength first := List.length_pos_iff.mpr Nat.toDigits_ne_nil

theorem toDigits_div (large : ¬ first < 16) : Nat.toDigits 16 first =
    Nat.toDigits 16 (first / 16) ++ [Nat.digitChar (first % 16)] :=
  Nat.toDigits_of_base_le (by decide) (Nat.le_of_not_lt large)

theorem digitChar_lt : ∀ digit < 16, ∀ digit' < 16,
    (Nat.digitChar digit < Nat.digitChar digit' ↔ digit < digit') ∧
      (Nat.digitChar digit = Nat.digitChar digit' ↔ digit = digit') := by
  decide

theorem underscore_lt : ∀ digit < 16, '_' < Nat.digitChar digit ↔ 10 ≤ digit := by
  decide

theorem lt_underscore : ∀ digit < 16, Nat.digitChar digit < '_' ↔ digit < 10 := by
  decide

theorem digitChar_ne : ∀ digit < 16, Nat.digitChar digit ≠ '_' := by
  decide

/-- Texts of one length are in the order of the numbers. -/
theorem toDigits_lt (same : hexLength first = hexLength second) :
    (Nat.toDigits 16 first < Nat.toDigits 16 second ↔ first < second) ∧
      (Nat.toDigits 16 first = Nat.toDigits 16 second ↔ first = second) := by
  induction first using Nat.strong_induction_on generalizing second with
  | h first ih =>
    by_cases small : first < 16
    · have small' : second < 16 := hexLength_le_one.mp (same ▸ hexLength_le_one.mpr small)
      obtain ⟨less, equal⟩ := digitChar_lt first small second small'
      rw [Nat.toDigits_of_lt_base small, Nat.toDigits_of_lt_base small', List.cons_lt_cons_iff, less]
      simp [equal]
    · have large : ¬ second < 16 := fun small' =>
        small (hexLength_le_one.mp (same ▸ hexLength_le_one.mpr small'))
      have lengths : hexLength (first / 16) = hexLength (second / 16) := by
        rw [hexLength, hexLength, toDigits_div small, toDigits_div large, List.length_append,
          List.length_append] at same
        exact Nat.add_right_cancel same
      obtain ⟨less, equal⟩ := ih (first / 16) (by omega) lengths
      obtain ⟨lastLess, lastEqual⟩ := digitChar_lt _ (Nat.mod_lt first (by decide)) _
        (Nat.mod_lt second (by decide))
      constructor
      · rw [toDigits_div small, toDigits_div large, append_lt_append lengths, less, equal,
          List.cons_lt_cons_iff, lastLess]
        simp only [List.not_lt_nil, and_false, or_false]
        omega
      · rw [toDigits_div small, toDigits_div large]
        constructor
        · intro texts
          obtain ⟨front, last⟩ := List.append_inj texts lengths
          have front := equal.mp front
          have last := lastEqual.mp (List.singleton_inj.mp last)
          omega
        · intro numbers
          rw [numbers]

/-- The digits before the last ones. -/
theorem toDigits_split (long : count < hexLength first) :
    ∃ rest, rest.length = count ∧
      Nat.toDigits 16 first = Nat.toDigits 16 (first / 16 ^ count) ++ rest ∧
      (0 < count → ∃ more, rest = Nat.digitChar (first / 16 ^ (count - 1) % 16) :: more) := by
  induction count with
  | zero => exact ⟨[], rfl, by simp, by simp⟩
  | succ count ih =>
    obtain ⟨rest, length, split, _⟩ := ih (by omega)
    have large : ¬ first / 16 ^ count < 16 := by
      intro small
      have short := hexLength_le_one.mpr small
      rw [hexLength, split, List.length_append, length] at long
      rw [hexLength] at short
      omega
    refine ⟨Nat.digitChar (first / 16 ^ count % 16) :: rest, by simp [length], ?_, ?_⟩
    · rw [split, toDigits_div large, Nat.div_div_eq_div_mul, ← Nat.pow_succ]
      simp
    · intro _
      exact ⟨rest, rfl⟩

/-- Where the underscores stand decides between numbers of different lengths. -/
theorem hex_lt : Nat.toDigits 16 first ++ '_' :: left < Nat.toDigits 16 second ++ '_' :: right ↔
    HexBefore first second ∨ first = second ∧ left < right := by
  -- The longer text is cut where the shorter one ends.
  obtain ⟨more, length, splitSecond, nextSecond⟩ :=
    toDigits_split (Nat.sub_lt hexLength_pos hexLength_pos : hexLength second - hexLength first < _)
  obtain ⟨less, length', splitFirst, nextFirst⟩ :=
    toDigits_split (Nat.sub_lt hexLength_pos hexLength_pos : hexLength first - hexLength second < _)
  have fronts : hexLength (first / 16 ^ (hexLength first - hexLength second)) =
      hexLength (second / 16 ^ (hexLength second - hexLength first)) := by
    have first := congrArg List.length splitFirst
    have second := congrArg List.length splitSecond
    rw [List.length_append] at first second
    unfold hexLength at *
    omega
  obtain ⟨front, equal⟩ := toDigits_lt fronts
  rw [splitFirst, splitSecond, List.append_assoc, List.append_assoc, append_lt_append fronts, front,
    equal, HexBefore]
  obtain shorter | same | longer := Nat.lt_trichotomy (hexLength first) (hexLength second)
  · obtain ⟨rest, rfl⟩ := nextSecond (by omega)
    obtain rfl := List.eq_nil_of_length_eq_zero (length'.trans (by omega))
    have digit := Nat.mod_lt (second / 16 ^ (hexLength second - hexLength first - 1))
      (show 0 < 16 by decide)
    have apart : first ≠ second := by rintro rfl; omega
    simp only [List.nil_append, List.cons_append, List.cons_lt_cons_iff, underscore_lt _ digit,
      (digitChar_ne _ digit).symm, apart]
    simp [Nat.sub_pos_of_lt shorter, Nat.le_of_lt shorter]
  · rw [same, Nat.sub_self, List.length_eq_zero_iff] at length
    rw [same, Nat.sub_self, List.length_eq_zero_iff] at length'
    subst length length'
    simp [same]
  · obtain ⟨rest, rfl⟩ := nextFirst (by omega)
    obtain rfl := List.eq_nil_of_length_eq_zero (length.trans (by omega))
    have digit := Nat.mod_lt (first / 16 ^ (hexLength first - hexLength second - 1))
      (show 0 < 16 by decide)
    have apart : first ≠ second := by rintro rfl; omega
    simp only [List.nil_append, List.cons_append, List.cons_lt_cons_iff, lt_underscore _ digit,
      digitChar_ne _ digit, apart]
    simp [Nat.sub_pos_of_lt longer, Nat.le_of_lt longer]

end Order

end Nausicaa.Text
