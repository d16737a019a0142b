import Mathlib.Data.Int.Bitwise

namespace Chip8

/-! Arithmetic and logic on bytes and addresses, each operation told as one on whole numbers. -/

theorem add_address (left right : UInt16) :
    ((left.toNat : Int) + right.toNat) % 0x10000 = (left + right).toNat := by
  rw [UInt16.toNat_add]
  rfl

theorem add_byte (left right : UInt8) :
    ((left.toNat : Int) + right.toNat) % 0x100 = (left + right).toNat := by
  rw [UInt8.toNat_add]
  rfl

theorem sub_byte (left right : UInt8) :
    ((left.toNat : Int) - right.toNat) % 0x100 = (left - right).toNat := by
  have leftLt := left.toNat_lt
  have rightLt := right.toNat_lt
  rw [UInt8.toNat_sub]
  omega

theorem shiftRight_byte (byte : UInt8) : ((byte.toNat : Int) / 2) % 0x100 = (byte >>> 1).toNat := by
  have bound := byte.toNat_lt
  have halved : (byte >>> 1).toNat = byte.toNat / 2 := by
    rw [UInt8.toNat_shiftRight]
    exact Nat.shiftRight_eq_div_pow byte.toNat 1
  rw [halved]
  omega

theorem shiftLeft_byte (byte : UInt8) : ((byte.toNat : Int) * 2) % 0x100 = (byte <<< 1).toNat := by
  have doubled : (byte <<< 1).toNat = byte.toNat * 2 % 256 := by
    rw [UInt8.toNat_shiftLeft]
    exact congrArg (· % 256) (Nat.shiftLeft_eq byte.toNat 1)
  rw [doubled]
  omega

theorem land_byte (left right : UInt8) :
    Int.land left.toNat right.toNat = (left &&& right).toNat := by
  rw [UInt8.toNat_and]
  rfl

theorem lor_byte (left right : UInt8) :
    Int.lor left.toNat right.toNat = (left ||| right).toNat := by
  rw [UInt8.toNat_or]
  rfl

theorem xor_byte (left right : UInt8) :
    Int.xor left.toNat right.toNat = (left ^^^ right).toNat := by
  rw [UInt8.toNat_xor]
  rfl

theorem beq_byte (left right : UInt8) :
    ((left.toNat : Int) == right.toNat) = (left == right) := by
  rw [Bool.eq_iff_iff, beq_iff_eq, beq_iff_eq, Int.ofNat_inj, UInt8.toNat_inj]

theorem flag_byte {plain typed : Prop} [Decidable plain] [Decidable typed] (same : plain ↔ typed) :
    (if plain then 1 else 0 : Int) = (if typed then 1 else 0 : UInt8).toNat := by
  by_cases raised : typed
  · rw [if_pos raised, if_pos (same.mpr raised)]
    rfl
  · rw [if_neg raised, if_neg (mt same.mp raised)]
    rfl

end Chip8
