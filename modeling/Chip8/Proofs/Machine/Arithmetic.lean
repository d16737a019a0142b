import Chip8.Proofs.Bytes
import Chip8.Proofs.Machine.Session

namespace Chip8

/-- The result and the flag that an operation leaves, told from the values of its two registers. The
    operations without an entry leave the flag alone. -/
def PairOp.computed? (normalize : Bool) (a b : Nat) : PairOp → Option (Int × Nat)
  | .add => some ((a + b : Int) % 256, if a + b > 255 then 1 else 0)
  | .subtract => some ((a - b : Int) % 256, if a > b then 1 else 0)
  | .subtractFrom => some ((b - a : Int) % 256, if b > a then 1 else 0)
  | .shiftRight => some ((a / 2 : Int), a % 2)
  | .shiftLeft => some ((2 * a : Int) % 256, if normalize then a / 128 else 128 * (a / 128))
  | _ => none

/-- Together the result and the flag hold the whole sum, and every bit of a value that was
    shifted. -/
theorem PairOp.computed?_whole {normalize : Bool} {a b : Nat} {op : PairOp} {result : Int}
    {carried : Nat} (left : a < 256) (right : b < 256)
    (computed : op.computed? normalize a b = some (result, carried)) :
    (op = .add → 256 * carried + result = a + b) ∧
      (op = .shiftRight → 2 * result + carried = a) ∧
        (op = .shiftLeft → normalize = true → 256 * carried + result = 2 * a) := by
  refine ⟨?_, ?_, ?_⟩
  · rintro rfl
    cases computed
    split <;> omega
  · rintro rfl
    cases computed
    omega
  · rintro rfl rfl
    cases computed
    simp only [if_true]
    omega

/-! The bit that a shift to the left loses. -/

theorem lost_bit (byte : UInt8) : (byte &&& 0x80).toNat = 128 * (byte.toNat / 128) := by
  have bound := byte.toNat_lt
  have masked : byte.toNat &&& 2 ^ 7 = (byte.toNat.testBit 7).toNat * 2 ^ 7 := Nat.and_two_pow _ 7
  rw [Nat.toNat_testBit] at masked
  rw [UInt8.toNat_and]
  change byte.toNat &&& 2 ^ 7 = _
  rw [masked]
  omega

theorem lost_bit_normalized (byte : UInt8) :
    ((byte &&& 0x80) >>> 7).toNat = byte.toNat / 128 := by
  rw [UInt8.toNat_shiftRight, lost_bit]
  change (128 * (byte.toNat / 128)) >>> 7 = _
  rw [Nat.shiftRight_eq_div_pow]
  omega

namespace Machine

/-! Arithmetic on two registers, which may be one and the same, and either of which may be the
    flag. -/

variable {ρ : Type} {machine : Machine ρ} {x y : Register} {op : PairOp} {result : Int}
  {carried : Nat} {word : UInt16}

theorem register_setRegister (value : UInt8) : (machine.setRegister x value).register x = value :=
  Vector.getElem_set_self x.lt

theorem register_setRegister_of_ne (apart : y ≠ x) (value : UInt8) :
    (machine.setRegister x value).register y = machine.register y :=
  (kept_setRegister (fun same => apart (Part.register.inj same)) value :
    (Part.register y).Kept machine (machine.setRegister x value))

theorem flag_setWithFlag (value bit : UInt8) :
    (machine.setWithFlag x value bit).register flag = bit :=
  register_setRegister bit

theorem target_setWithFlag (apart : x ≠ flag) (value bit : UInt8) :
    (machine.setWithFlag x value bit).register x = value :=
  (register_setRegister_of_ne apart bit).trans (register_setRegister value)

/-- What was read before anything is written decides both the result and the flag. -/
theorem execPair_computed (machine : Machine ρ)
    (computed : op.computed? machine.settings.normalizeShiftFlag (machine.register x).toNat
      (machine.register y).toNat = some (result, carried)) :
    ∃ value bit, machine.execPair x y op = machine.setWithFlag x value bit ∧
      (value.toNat : Int) = result ∧ bit.toNat = carried := by
  have raised {condition : Prop} [Decidable condition] :
      (if condition then 1 else 0 : UInt8).toNat = if condition then 1 else 0 := by
    split <;> rfl
  have bound := (machine.register x).toNat_lt
  cases op with
  | add =>
      cases computed
      exact ⟨_, _, rfl, (add_byte _ _).symm, raised⟩
  | subtract =>
      cases computed
      exact ⟨_, _, rfl, (sub_byte _ _).symm, raised⟩
  | subtractFrom =>
      cases computed
      exact ⟨_, _, rfl, (sub_byte _ _).symm, raised⟩
  | shiftRight =>
      cases computed
      have halved := shiftRight_byte (machine.register x)
      refine ⟨_, _, rfl, by omega, ?_⟩
      rw [UInt8.toNat_and]
      exact Nat.and_one_is_mod _
  | shiftLeft =>
      cases computed
      have doubled := shiftLeft_byte (machine.register x)
      refine ⟨_, _, rfl, by omega, ?_⟩
      cases machine.settings.normalizeShiftFlag with
      | false => exact lost_bit _
      | true => exact lost_bit_normalized _
  | _ => cases computed

section Step

variable [ByteSource ρ]

/-- A step that adds, subtracts or shifts leaves the flag that the values before the step give, and
    this also where the flag is the target. In any other target it leaves the result. Nothing else
    changes, save that the machine goes on behind the instruction. -/
theorem arithmetic_step (free : machine.waiting = none) (fetched : machine.fetch = .ok word)
    (decoded : Instruction.decode word.toNat = .pair op x y)
    (computed : op.computed? machine.settings.normalizeShiftFlag (machine.register x).toNat
      (machine.register y).toNat = some (result, carried)) :
    ∃ after, machine.step = (.ok (some (.pair op x y)), after) ∧
      (after.register flag).toNat = carried ∧
        (x ≠ flag →
          ((after.register x).toNat : Int) = result ∧
            (op = .add →
              256 * (after.register flag).toNat + (after.register x).toNat =
                (machine.register x).toNat + (machine.register y).toNat) ∧
              (op = .shiftRight →
                2 * (after.register x).toNat + (after.register flag).toNat =
                  (machine.register x).toNat) ∧
                (op = .shiftLeft → machine.settings.normalizeShiftFlag = true →
                  256 * (after.register flag).toNat + (after.register x).toNat =
                    2 * (machine.register x).toNat)) ∧
          after.pc.toNat = machine.pc.toNat + 2 ∧
            ∀ part : Part, part ≠ .pc → part ≠ .register x → part ≠ .register flag →
              part.Kept machine after := by
  obtain ⟨value, bit, effect, valueSame, bitSame⟩ :=
    machine.advance.execPair_computed computed
  have stepped : machine.step =
      (.ok (some (.pair op x y)), machine.advance.setWithFlag x value bit) :=
    step_eq_ok_some_iff.mpr ⟨free, word, fetched, decoded, congrArg Except.ok effect⟩
  have kept (part : Part) (target : part ≠ .register x) (carry : part ≠ .register flag) :
      part.Kept machine.advance (machine.advance.setWithFlag x value bit) :=
    kept_setWithFlag target carry value bit
  refine ⟨_, stepped, ?_, fun apart => ?_, ?_, fun part counter target carry => ?_⟩
  · rw [flag_setWithFlag, bitSame]
  · obtain ⟨sum, half, double⟩ := PairOp.computed?_whole (machine.register x).toNat_lt
      (machine.register y).toNat_lt computed
    rw [target_setWithFlag apart, flag_setWithFlag, bitSame]
    refine ⟨valueSame, fun same => ?_, fun same => ?_, fun same normal => ?_⟩
    · have whole := sum same
      omega
    · have whole := half same
      omega
    · have whole := double same normal
      omega
  · have here : (machine.advance.setWithFlag x value bit).pc = machine.advance.pc :=
      kept .pc nofun nofun
    rw [here, toNat_advance fetched]
  · exact (kept_advance counter).trans (kept part target carry)

/-- The flag itself is taken away from a register that is less. -/
theorem arithmetic_step_from_flag :
    ∃ machine after : Machine ByteCycle,
      boot [0x81, 0xF5] {} { values := [] } = .ok machine ∧
        let loaded := (machine.session [.assignRegister 1 1, .assignRegister flag 2]).2
        loaded.step = (.ok (some (.pair .subtract 1 flag)), after) ∧
          (after.register flag).toNat = 0 ∧ ((after.register 1).toNat : Int) = 255 ∧
            after.pc.toNat = loaded.pc.toNat + 2 ∧
              ∀ part : Part, part ≠ .pc → part ≠ .register 1 → part ≠ .register flag →
                part.Kept loaded after := by
  obtain ⟨machine, booted, free, fetched, decoded, computed⟩ : ∃ machine : Machine ByteCycle,
      boot [0x81, 0xF5] {} { values := [] } = .ok machine ∧
        let loaded := (machine.session [.assignRegister 1 1, .assignRegister flag 2]).2
        loaded.waiting = none ∧ loaded.fetch = .ok 0x81F5 ∧
          Instruction.decode (0x81F5 : UInt16).toNat = .pair .subtract 1 flag ∧
            PairOp.subtract.computed? loaded.settings.normalizeShiftFlag (loaded.register 1).toNat
              (loaded.register flag).toNat = some (255, 0) := ⟨_, rfl, by decide +kernel⟩
  obtain ⟨after, stepped, carried, difference, rest⟩ :=
    arithmetic_step free fetched decoded computed
  exact ⟨machine, after, booted, stepped, carried, (difference (by decide)).1, rest⟩

end Step

end Machine

end Chip8
