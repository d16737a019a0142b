import Chip8.Machine.Framebuffer
import Mathlib

namespace Chip8.Framebuffer

/-! A sprite's line pixel by pixel, from the left. -/

/-- The pixel in one column. -/
def dot (column : Nat) : BitVec 64 :=
  BitVec.twoPow 64 (63 - column)

theorem getMsbD_dot {column : Nat} (inside : column < 64) (x : Nat) :
    (dot column).getMsbD x = decide (x = column) := by
  rw [dot, BitVec.getMsbD_twoPow, Bool.eq_iff_iff]
  simp only [Bool.and_eq_true, decide_eq_true_eq]
  omega

theorem getMsbD_dot_column {x i column : Nat} (left : x < 64) (right : i < 64)
    (narrow : column < 8) :
    (dot ((x + column) % 64)).getMsbD i = decide ((i + 64 - x) % 64 = column) := by
  rw [getMsbD_dot (Nat.mod_lt _ (by decide)), Bool.eq_iff_iff]
  simp only [decide_eq_true_eq]
  omega

/-- Of a line's bits, the one that falls on column `i`. -/
theorem getMsbD_spriteLine (clip : Bool) (bits : UInt8) {x i : Nat} (left : x < 64)
    (right : i < 64) :
    (spriteLine clip bits x).getMsbD i =
      (bits.toBitVec.getMsbD ((i + 64 - x) % 64) && (!clip || decide (x ≤ i))) := by
  have padded (column : Nat) :
      (bits.toBitVec ++ 0#56).getMsbD column = bits.toBitVec.getMsbD column := by
    rw [BitVec.getMsbD_append]
    split
    · next beyond => rw [BitVec.getMsbD_zero, BitVec.getMsbD_of_ge _ _ beyond]
    · rfl
  cases clip with
  | true =>
      rw [spriteLine, if_pos rfl, BitVec.getMsbD_ushiftRight, padded]
      by_cases before : i < x
      · simp [before]
      · have same : (i + 64 - x) % 64 = i - x := by omega
        simp [same, right, before, Nat.not_lt.mp before]
  | false =>
      rw [spriteLine, if_neg (by decide), BitVec.getMsbD_rotateRight_of_lt left, padded, padded,
        Nat.mod_eq_of_lt left]
      by_cases before : i < x
      · have same : 64 + i - x = i + 64 - x := by omega
        simp [same, right, before]
      · have same : (i + 64 - x) % 64 = i - x := by omega
        simp [same, right, before]

/-- The pixels under some columns of a line. The first column beyond the right edge ends it where
    sprites are clipped. -/
def columns (clip : Bool) (x : Nat) (bits : UInt8) : List Nat → BitVec 64
  | [] => 0
  | column :: rest =>
      if clip && 64 ≤ x + column then 0
      else if bits.toBitVec.getMsbD column then
        dot ((x + column) % 64) ||| columns clip x bits rest
      else columns clip x bits rest

theorem getMsbD_columns (clip : Bool) (bits : UInt8) {x i : Nat} (left : x < 64) (right : i < 64)
    {first count : Nat} (narrow : first + count ≤ 8) :
    (columns clip x bits (List.range' first count)).getMsbD i =
      (decide (first ≤ (i + 64 - x) % 64 ∧ (i + 64 - x) % 64 < first + count) &&
        (spriteLine clip bits x).getMsbD i) := by
  rw [getMsbD_spriteLine clip bits left right]
  induction count generalizing first with
  | zero =>
      have nowhere : ¬ (first ≤ (i + 64 - x) % 64 ∧ (i + 64 - x) % 64 < first + 0) := by omega
      rw [decide_eq_false nowhere]
      exact BitVec.getMsbD_zero
  | succ count ih =>
      have further := @ih (first + 1) (by omega)
      rw [List.range'_succ, columns]
      by_cases past : clip = true ∧ 64 ≤ x + first
      -- What falls on a column from here on would have wrapped around to the left of `x`.
      · have none : first ≤ (i + 64 - x) % 64 → ¬ x ≤ i := by omega
        rw [if_pos (by simpa using past)]
        simp only [past.1, Bool.not_true, Bool.false_or, BitVec.ofNat_eq_ofNat, BitVec.getMsbD_zero]
        symm
        rw [Bool.eq_false_iff]
        intro lit
        simp only [Bool.and_eq_true, decide_eq_true_eq] at lit
        exact none lit.1.1 lit.2.2
      · rw [if_neg (by simpa using past)]
        have visible : (i + 64 - x) % 64 = first → clip = true → x ≤ i := by
          intro here clipped
          have short : ¬ 64 ≤ x + first := fun beyond => past ⟨clipped, beyond⟩
          omega
        by_cases here : (i + 64 - x) % 64 = first
        · cases bit : bits.toBitVec.getMsbD first with
          | false => simp [further, here, bit]
          | true =>
              cases clip with
              | false => simp [getMsbD_dot_column left right (by omega : first < 8), here, bit]
              | true =>
                  simp [getMsbD_dot_column left right (by omega : first < 8), here, bit, visible]
        · have later : (first + 1 ≤ (i + 64 - x) % 64 ∧ (i + 64 - x) % 64 < first + 1 + count) ↔
              (first ≤ (i + 64 - x) % 64 ∧ (i + 64 - x) % 64 < first + (count + 1)) := by omega
          cases bits.toBitVec.getMsbD first with
          | false => rw [if_neg Bool.false_ne_true, further, decide_eq_decide.mpr later]
          | true =>
              rw [if_pos rfl, BitVec.getMsbD_or, getMsbD_dot_column left right (by omega),
                decide_eq_false here, Bool.false_or, further, decide_eq_decide.mpr later]

/-- The columns to the right of one do not fall on it. -/
theorem dot_and_columns (clip : Bool) (bits : UInt8) {x : Nat} (left : x < 64)
    {first count : Nat} (narrow : first + 1 + count ≤ 8) :
    dot ((x + first) % 64) &&& columns clip x bits (List.range' (first + 1) count) = 0 := by
  apply BitVec.eq_of_getMsbD_eq
  intro i right
  rw [BitVec.getMsbD_and, getMsbD_dot_column left right (by omega),
    getMsbD_columns clip bits left right narrow]
  by_cases here : (i + 64 - x) % 64 = first
  · have before : ¬ first + 1 ≤ first := by omega
    simp only [here, before, false_and, decide_false, Bool.false_and, Bool.and_false]
    exact BitVec.getMsbD_zero.symm
  · rw [decide_eq_false here, Bool.false_and]
    exact BitVec.getMsbD_zero.symm

theorem columns_range (clip : Bool) (bits : UInt8) {x : Nat} (left : x < 64) :
    columns clip x bits (List.range 8) = spriteLine clip bits x := by
  apply BitVec.eq_of_getMsbD_eq
  intro i right
  rw [List.range_eq_range', getMsbD_columns clip bits left right (Nat.le_refl 8),
    getMsbD_spriteLine clip bits left right]
  by_cases inside : (i + 64 - x) % 64 < 8
  · simp [inside]
  · rw [BitVec.getMsbD_of_ge bits.toBitVec _ (Nat.not_lt.mp inside), Bool.false_and, Bool.and_false]

/-- Pictures are told apart by their pixels. -/
theorem rows_eq_of_isSet {display other : Framebuffer}
    (same : ∀ (px : Fin 64) (py : Fin 32), other.isSet px py = display.isSet px py) :
    other.rows = display.rows := by
  refine Vector.ext fun y below => BitVec.eq_of_getMsbD_eq fun x inside => ?_
  exact same ⟨x, inside⟩ ⟨y, below⟩

/-- A line with the pixels of another one inverted. -/
def invert (display : Framebuffer) (y : Fin 32) (line : BitVec 64) : Framebuffer :=
  { display with rows := display.rows.setIfInBounds y (display.rows.get y ^^^ line) }

theorem rows_invert (display : Framebuffer) (y : Fin 32) (line : BitVec 64) :
    (display.invert y line).rows.get y = display.rows.get y ^^^ line := by
  simp [invert, Vector.get_eq_getElem]

theorem invert_zero (display : Framebuffer) (y : Fin 32) : display.invert y 0#64 = display := by
  have same : display.rows.setIfInBounds y (display.rows.get y) = display.rows := by
    refine Vector.ext fun i inside => ?_
    rw [Vector.getElem_setIfInBounds, Vector.get_eq_getElem]
    split
    · next here => simp only [here]
    · rfl
  rw [invert, BitVec.xor_zero, same]

/-- The first line of a sprite inverts pixels of its row, and the other lines follow. -/
theorem stamp_cons {display : Framebuffer} {x y : Nat} (bits : UInt8) (rest : List UInt8)
    (visible : ¬ (display.clip && 32 ≤ y) = true) :
    let row := Fin.ofNat 32 y
    let line := spriteLine display.clip bits x
    let later := (display.invert row line).stamp x (y + 1) rest
    display.stamp x y (bits :: rest) =
      ((display.rows.get row &&& line) != 0 || later.1, later.2) := by
  intro row line later
  have inverted : display.invert row line =
      { display with rows := display.rows.set row (display.rows[row] ^^^ line) } := by
    refine congrArg (Framebuffer.mk display.clip) (Vector.ext fun i inside => ?_)
    rw [Vector.getElem_setIfInBounds, Vector.getElem_set]
    rfl
  rw [stamp, if_neg visible]
  simp only [later, inverted]
  rfl

section Apart

variable {row line other : BitVec 64}

theorem dark_of_apart (apart : line &&& other = 0) {i : Nat} (lit : line.getMsbD i = true) :
    other.getMsbD i = false := by
  have both : (line &&& other).getMsbD i = false := by
    rw [apart]
    exact BitVec.getMsbD_zero
  rw [BitVec.getMsbD_and, lit, Bool.true_and] at both
  exact both

theorem xor_or (apart : line &&& other = 0) :
    row ^^^ (line ||| other) = row ^^^ line ^^^ other := by
  apply BitVec.eq_of_getMsbD_eq
  intro i _
  rw [BitVec.getMsbD_xor, BitVec.getMsbD_xor, BitVec.getMsbD_xor, BitVec.getMsbD_or]
  cases lit : line.getMsbD i with
  | false => rw [Bool.false_or, Bool.xor_false]
  | true => rw [dark_of_apart apart lit, Bool.or_false, Bool.xor_false]

theorem and_xor (apart : line &&& other = 0) : (row ^^^ line) &&& other = row &&& other := by
  apply BitVec.eq_of_getMsbD_eq
  intro i _
  rw [BitVec.getMsbD_and, BitVec.getMsbD_and, BitVec.getMsbD_xor]
  cases lit : line.getMsbD i with
  | false => rw [Bool.xor_false]
  | true => rw [dark_of_apart apart lit, Bool.and_false, Bool.and_false]

/-- Lines that do not meet are drawn together or one after the other. -/
theorem invert_or (display : Framebuffer) (y : Fin 32) (apart : line &&& other = 0) :
    display.invert y (line ||| other) = (display.invert y line).invert y other := by
  simp [invert, Vector.get_eq_getElem, xor_or apart]

end Apart

theorem and_dot {row : BitVec 64} {column : Nat} (inside : column < 64) :
    row &&& dot column = if row.getMsbD column then dot column else 0 := by
  apply BitVec.eq_of_getMsbD_eq
  intro i _
  rw [BitVec.getMsbD_and, getMsbD_dot inside]
  by_cases here : i = column
  · rw [decide_eq_true here, Bool.and_true, here]
    cases row.getMsbD column with
    | false => exact BitVec.getMsbD_zero.symm
    | true => simp [getMsbD_dot inside]
  · rw [decide_eq_false here, Bool.and_false]
    cases row.getMsbD column with
    | false => exact BitVec.getMsbD_zero.symm
    | true => simp [getMsbD_dot inside, here]

theorem dot_ne_zero {column : Nat} (inside : column < 64) : dot column ≠ 0 := by
  intro empty
  have lit := getMsbD_dot inside column
  rw [empty] at lit
  simp at lit

/-- A line turns a pixel off if its first pixel does or its further ones do afterwards. -/
theorem covers_or {row other : BitVec 64} {column : Nat} (inside : column < 64)
    (apart : dot column &&& other = 0) :
    (row &&& (dot column ||| other) != 0) =
      (row.getMsbD column || (row ^^^ dot column) &&& other != 0) := by
  rw [and_xor apart, BitVec.and_or_distrib_left, and_dot inside]
  cases row.getMsbD column with
  | false => simp
  | true =>
      rw [if_pos rfl, Bool.true_or, bne_iff_ne]
      exact fun empty => dot_ne_zero inside (BitVec.or_eq_zero_iff.mp empty).1

end Chip8.Framebuffer
