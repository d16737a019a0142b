import Chip8.Numeral
import Mathlib.Data.List.Basic

namespace Chip8.Numeral

/-! A printed number consists of digits of its base, and they stand for the number. -/

structure IsNumeral (base number : Nat) (text : List Char) : Prop where
  nonempty : text ≠ []
  digits : ∀ character ∈ text, (digitValue? base character).isSome = true
  value : Numeral.value base (text.filterMap (digitValue? base)) = number

theorem digits_ne_nil (base number : Nat) : digits base number ≠ [] := by
  rw [digits]
  split
  · exact List.cons_ne_nil _ _
  · exact List.append_ne_nil_of_right_ne_nil _ (List.cons_ne_nil _ _)

theorem digits_lt {base : Nat} (large : 1 < base) (number : Nat) :
    ∀ digit ∈ digits base number, digit < base := by
  fun_induction digits base number with
  | case1 number small =>
      intro digit member
      have same := List.mem_singleton.mp member
      omega
  | case2 number _ ih =>
      intro digit member
      rcases List.mem_append.mp member with earlier | last
      · exact ih digit earlier
      · rw [List.mem_singleton.mp last]
        exact Nat.mod_lt number (by omega)

theorem digits_of_lt {base number : Nat} (small : number < base) :
    digits base number = [number] := by
  rw [digits, if_pos (Or.inr small)]

theorem digitValue?_upperDigit {base digit : Nat} (sixteen : base ≤ 16) (small : digit < base) :
    digitValue? base (upperDigit digit) = some digit := by
  have fromTable : ∀ digit < 16, ∀ base ≤ 16, digit < base →
      digitValue? base (upperDigit digit) = some digit := by decide
  exact fromTable digit (by omega) base sixteen small

theorem value_zeros (base count : Nat) (digits : List Nat) :
    value base (List.replicate count 0 ++ digits) = value base digits := by
  induction count with
  | zero => rfl
  | succ count ih =>
      rw [List.replicate_succ, List.cons_append, ← ih]
      simp only [value, List.foldl_cons, Nat.mul_zero, Nat.zero_add]

theorem value_append_zeros (base : Nat) (digits : List Nat) (count : Nat) :
    value base (digits ++ List.replicate count 0) = value base digits * Nat.pow base count := by
  induction count with
  | zero => simp
  | succ count ih =>
      have power : Nat.pow base (count + 1) = Nat.pow base count * base := rfl
      rw [List.replicate_succ', ← List.append_assoc, value_append_single, ih, power,
        Nat.add_zero, Nat.mul_comm, Nat.mul_assoc]

theorem signed_natCast (digit : Nat → Char) (base width number : Nat) :
    (signed digit base width (number : Int)).toList =
      List.replicate (width - (digits base number).length) '0' ++
        (digits base number).map digit := by
  have positive : ¬ (number : Int) < 0 := by omega
  simp [signed, positive]

theorem isNumeral_signed {base : Nat} (large : 1 < base) (sixteen : base ≤ 16)
    (width number : Nat) :
    IsNumeral base number (signed upperDigit base width (number : Int)).toList := by
  have zero : digitValue? base '0' = some 0 :=
    digitValue?_upperDigit (show base ≤ 16 from sixteen) (show 0 < base by omega)
  have printed : ∀ digit ∈ digits base number,
      digitValue? base (upperDigit digit) = some digit := fun digit member =>
    digitValue?_upperDigit sixteen (digits_lt large number digit member)
  rw [signed_natCast]
  refine ⟨?_, ?_, ?_⟩
  · have nonempty := digits_ne_nil base number
    simp [nonempty]
  · intro character member
    rcases List.mem_append.mp member with filler | shown
    · rw [(List.mem_replicate.mp filler).2, zero]
      rfl
    · obtain ⟨digit, listed, rfl⟩ := List.mem_map.mp shown
      rw [printed digit listed]
      rfl
  · have readBack : ((digits base number).map upperDigit).filterMap (digitValue? base) =
        digits base number := by
      rw [List.filterMap_map]
      exact (List.filterMap_congr printed).trans (List.filterMap_some)
    rw [List.filterMap_append, List.filterMap_replicate_of_some zero, readBack, value_zeros,
      value_digits]

end Chip8.Numeral
