import Chip8.Proofs.Machine.Memory
import Chip8.Proofs.Machine.Step

namespace Chip8

/-- The parts of a machine that an instruction may change one without the others. -/
inductive Part
  | pc
  | index
  | register (x : Register)
  | delay
  | sound
  | waiting
  | cell (address : Address)
  | stack
  | display
  | keypad
  | random
  | settings
  deriving DecidableEq, Repr

namespace Part

variable {ρ : Type} {machine middle after : Machine ρ} {part : Part}

def Kept (part : Part) (machine after : Machine ρ) : Prop :=
  match part with
  | pc => after.pc = machine.pc
  | index => after.index = machine.index
  | register x => after.register x = machine.register x
  | delay => after.delay = machine.delay
  | sound => after.sound = machine.sound
  | waiting => after.waiting = machine.waiting
  | cell address => after.memory.cell address = machine.memory.cell address
  | stack => after.stack = machine.stack
  | display => after.display = machine.display
  | keypad => after.keypad = machine.keypad
  | random => after.random = machine.random
  | settings => after.settings = machine.settings

theorem kept_rfl : part.Kept machine machine := by
  cases part <;> rfl

theorem Kept.trans (first : part.Kept machine middle) (second : part.Kept middle after) :
    part.Kept machine after := by
  cases part <;> exact Eq.trans second first

/-- A machine has no other parts. -/
theorem eq_of_kept (kept : ∀ part : Part, part.Kept machine after) : after = machine := by
  have memory : after.memory.cells = machine.memory.cells :=
    Vector.ext fun place inside => kept (.cell ⟨place, inside⟩)
  cases after
  cases machine
  congr 1
  · exact kept .pc
  · exact kept .index
  · exact Vector.ext fun place inside => kept (.register ⟨place, inside⟩)
  · exact kept .delay
  · exact kept .sound
  · exact kept .waiting
  · exact congrArg Memory.mk memory
  · exact kept .stack
  · exact kept .display
  · exact kept .keypad
  · exact kept .random
  · exact kept .settings

end Part

/-- The registers that an instruction may change. -/
def Instruction.Targets (instruction : Instruction) (k : Register) : Prop :=
  match instruction with
  | .immediate .load x _ | .immediate .add x _ | .immediate .random x _ => k = x
  | .pair .load x _ | .pair .or x _ | .pair .and x _ | .pair .xor x _ => k = x
  | .pair .add x _ | .pair .subtract x _ | .pair .subtractFrom x _ => k = x ∨ k = Machine.flag
  | .pair .shiftRight x _ | .pair .shiftLeft x _ => k = x ∨ k = Machine.flag
  | .draw _ _ _ => k = Machine.flag
  | .register .readDelay x => k = x
  | .register .load x => k ≤ x
  | _ => False

namespace Machine

/-! What an instruction may change, and that it leaves everything else alone. -/

variable {ρ : Type} {machine after : Machine ρ} {x : Register} {part : Part}
  {instruction : Instruction}

/-- The parts that an instruction may change in a machine. -/
def Writes (machine : Machine ρ) (instruction : Instruction) (part : Part) : Prop :=
  match part, instruction with
  | .pc, _ => True
  | .index, .address .loadIndex _ => True
  | .index, .register .addIndex _ | .index, .register .glyph _ => True
  | .index, .register .store _ | .index, .register .load _ =>
      machine.settings.incrementIndex = true
  | .register k, instruction => instruction.Targets k
  | .delay, .register .setDelay _ => True
  | .sound, .register .setSound _ => True
  | .waiting, .register .awaitKey _ => True
  | .cell address, .register .digits _ =>
      machine.index.toNat ≤ address.val ∧ address.val < machine.index.toNat + 3
  | .cell address, .register .store x =>
      machine.index.toNat ≤ address.val ∧ address.val ≤ machine.index.toNat + x.val
  | .stack, .bare .ret | .stack, .address .call _ => True
  | .display, .bare .clearScreen | .display, .draw _ _ _ => True
  | .random, .immediate .random _ _ => True
  | _, _ => False

theorem ne_of_not_writes {other : Part} (free : ¬ machine.Writes instruction part)
    (written : machine.Writes instruction other) : part ≠ other := by
  rintro rfl
  exact free written

theorem kept_advance (other : part ≠ .pc) : part.Kept machine machine.advance := by
  cases part with
  | pc => exact absurd rfl other
  | _ => rfl

theorem kept_skipIf (other : part ≠ .pc) (condition : Bool) :
    part.Kept machine (machine.skipIf condition) := by
  cases condition with
  | false => exact Part.kept_rfl
  | true => exact kept_advance other

theorem kept_setRegister (other : part ≠ .register x) (value : UInt8) :
    part.Kept machine (machine.setRegister x value) := by
  cases part with
  | register k =>
      have apart : x.val ≠ k.val := fun same => other (congrArg Part.register (Fin.ext same.symm))
      exact Vector.getElem_set_ne x.lt k.lt apart
  | _ => rfl

theorem kept_setWithFlag (target : part ≠ .register x) (carry : part ≠ .register flag)
    (value carried : UInt8) : part.Kept machine (machine.setWithFlag x value carried) :=
  (kept_setRegister target value).trans (kept_setRegister carry carried)

theorem kept_pollKeypad (free : part ≠ .waiting ∧ part ≠ .register x) :
    part.Kept machine (machine.pollKeypad x) := by
  rw [pollKeypad]
  cases machine.keypad.firstPressed with
  | none => exact Part.kept_rfl
  | some key =>
      refine (kept_setRegister free.2 (UInt8.ofNat key.val)).trans ?_
      cases part with
      | waiting => exact absurd rfl free.1
      | _ => rfl

/-- A block that is written changes no cell outside of it. -/
theorem cell_writeBlock {memory written : Memory} {start : Nat} {bytes : List UInt8}
    {address : Address} (done : memory.writeBlock start bytes = .ok written)
    (outside : ¬ (start ≤ address.val ∧ address.val < start + bytes.length)) :
    written.cell address = memory.cell address := by
  obtain ⟨_, rfl⟩ := Memory.access_eq_ok_iff.mp done
  exact Memory.cell_put_frame (by rw [Int.toNat_natCast]; omega)

theorem kept_execBare {op : BareOp} (done : machine.execBare op = .ok after)
    (free : ¬ machine.Writes (.bare op) part) : part.Kept machine after := by
  cases op with
  | clearScreen =>
      cases done
      cases part with
      | display => exact absurd trivial free
      | _ => rfl
  | ret =>
      obtain ⟨popped, _, done⟩ := bind_eq_ok_iff.mp done
      cases done
      cases part with
      | pc => exact absurd trivial free
      | stack => exact absurd trivial free
      | _ => rfl

theorem kept_execAddress {op : AddressOp} {addr : Address}
    (done : machine.execAddress addr op = .ok after)
    (free : ¬ machine.Writes (.address op addr) part) : part.Kept machine after := by
  cases op with
  | call =>
      obtain ⟨stack, _, done⟩ := bind_eq_ok_iff.mp done
      cases done
      cases part with
      | pc => exact absurd trivial free
      | stack => exact absurd trivial free
      | _ => rfl
  | loadIndex =>
      cases done
      cases part with
      | index => exact absurd trivial free
      | _ => rfl
  | _ =>
      cases done
      cases part with
      | pc => exact absurd trivial free
      | _ => rfl

theorem kept_execImmediate [ByteSource ρ] {op : ImmediateOp} {byte : UInt8}
    (free : ¬ machine.Writes (.immediate op x byte) part) :
    part.Kept machine (machine.execImmediate x byte op) := by
  cases op with
  | skipEqual | skipUnequal => exact kept_skipIf (ne_of_not_writes free trivial) _
  | load | add => exact kept_setRegister (ne_of_not_writes free rfl) _
  | random =>
      have drawn : part.Kept machine
          { machine with random := (ByteSource.draw machine.random).2 } := by
        cases part with
        | random => exact absurd trivial free
        | _ => rfl
      exact drawn.trans (kept_setRegister (ne_of_not_writes free rfl) _)

theorem kept_execPair {op : PairOp} {y : Register} (free : ¬ machine.Writes (.pair op x y) part) :
    part.Kept machine (machine.execPair x y op) := by
  cases op with
  | skipEqual | skipUnequal => exact kept_skipIf (ne_of_not_writes free trivial) _
  | load | or | and | xor => exact kept_setRegister (ne_of_not_writes free rfl) _
  | _ =>
      exact kept_setWithFlag (ne_of_not_writes free (Or.inl rfl))
        (ne_of_not_writes free (Or.inr rfl)) _ _

/-- Storing and loading registers move the index only where they are set to. -/
theorem indexAfterTransfer_eq (fixed : ¬ machine.settings.incrementIndex = true) :
    machine.indexAfterTransfer x = machine.index :=
  if_neg fixed

theorem kept_digits (done : machine.execRegister x .digits = .ok after)
    (free : ¬ machine.Writes (.register .digits x) part) : part.Kept machine after := by
  obtain ⟨memory, written, done⟩ := bind_eq_ok_iff.mp done
  cases done
  cases part with
  | pc => exact absurd trivial free
  | cell address => exact cell_writeBlock written free
  | _ => rfl

theorem kept_store (done : machine.execRegister x .store = .ok after)
    (free : ¬ machine.Writes (.register .store x) part) : part.Kept machine after := by
  obtain ⟨memory, written, done⟩ := bind_eq_ok_iff.mp done
  cases done
  cases part with
  | pc => exact absurd trivial free
  | index => exact indexAfterTransfer_eq free
  | cell address =>
      -- At most the registers up to `x` are written, which is all that is known of their number.
      refine cell_writeBlock written fun inside => free ⟨inside.1, ?_⟩
      have size := List.length_take_le (x.val + 1) machine.registers.toList
      omega
  | _ => rfl

theorem kept_load (done : machine.execRegister x .load = .ok after)
    (free : ¬ machine.Writes (.register .load x) part) : part.Kept machine after := by
  obtain ⟨bytes, _, done⟩ := bind_eq_ok_iff.mp done
  cases done
  cases part with
  | pc => exact absurd trivial free
  | index => exact indexAfterTransfer_eq free
  | register k =>
      have higher : ¬ k ≤ x := free
      change Vector.get (Vector.ofFn _) k = _
      simp [Vector.get_eq_getElem, higher, Machine.register]
  | _ => rfl

theorem kept_execRegister {op : RegisterOp} (done : machine.execRegister x op = .ok after)
    (free : ¬ machine.Writes (.register op x) part) : part.Kept machine after := by
  cases op with
  | skipPressed | skipReleased =>
      cases done
      exact kept_skipIf (ne_of_not_writes free trivial) _
  | readDelay =>
      cases done
      exact kept_setRegister (ne_of_not_writes free rfl) _
  | awaitKey =>
      cases done
      cases part with
      | waiting => exact absurd trivial free
      | _ => rfl
  | setDelay =>
      cases done
      cases part with
      | delay => exact absurd trivial free
      | _ => rfl
  | setSound =>
      cases done
      cases part with
      | sound => exact absurd trivial free
      | _ => rfl
  | addIndex | glyph =>
      cases done
      cases part with
      | index => exact absurd trivial free
      | _ => rfl
  | digits => exact kept_digits done free
  | store => exact kept_store done free
  | load => exact kept_load done free

theorem kept_execDraw {y : Register} {n : Nibble} (done : machine.execDraw x y n = .ok after)
    (free : ¬ machine.Writes (.draw x y n) part) : part.Kept machine after := by
  obtain ⟨⟨collision, display⟩, _, done⟩ := bind_eq_ok_iff.mp done
  cases done
  have drawn : part.Kept machine { machine with display } := by
    cases part with
    | display => exact absurd trivial free
    | _ => rfl
  exact drawn.trans (kept_setRegister (ne_of_not_writes free rfl) _)

theorem kept_exec [ByteSource ρ] (done : machine.exec instruction = .ok after)
    (free : ¬ machine.Writes instruction part) : part.Kept machine after := by
  cases instruction with
  | bare op => exact kept_execBare done free
  | address op addr => exact kept_execAddress done free
  | immediate op x byte =>
      cases done
      exact kept_execImmediate free
  | draw x y n => exact kept_execDraw done free
  | pair op x y =>
      cases done
      exact kept_execPair free
  | register op x => exact kept_execRegister done free
  | invalid word => cases done

end Machine

end Chip8
