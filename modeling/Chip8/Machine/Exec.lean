import Chip8.Machine.Basic

namespace Chip8.Machine

/-! What each instruction does to a machine whose program counter is already past it. Whatever may
    fail is asked before anything is written, so a fault leaves the machine as it was. -/

variable {ρ : Type}

def execBare (machine : Machine ρ) : BareOp → Except Fault (Machine ρ)
  | .clearScreen => .ok { machine with display := machine.display.clear }
  | .ret => do
      let (address, stack) ← machine.stack.pop
      .ok { machine with pc := address, stack }

def execAddress (machine : Machine ρ) (addr : Address) : AddressOp → Except Fault (Machine ρ)
  | .jump => .ok { machine with pc := UInt16.ofNat addr.val }
  | .call => do
      let stack ← machine.stack.push machine.pc
      .ok { machine with pc := UInt16.ofNat addr.val, stack }
  | .loadIndex => .ok { machine with index := UInt16.ofNat addr.val }
  | .jumpOffset =>
      let offset := (machine.register (.ofNat 0)).toUInt16
      .ok { machine with pc := offset + UInt16.ofNat addr.val }

def execImmediate [ByteSource ρ] (machine : Machine ρ) (x : Register) (byte : UInt8) :
    ImmediateOp → Machine ρ
  | .skipEqual => machine.skipIf (machine.register x == byte)
  | .skipUnequal => machine.skipIf (machine.register x != byte)
  | .load => machine.setRegister x byte
  | .add => machine.setRegister x (machine.register x + byte)
  | .random =>
      let (value, random) := ByteSource.draw machine.random
      { machine with random }.setRegister x (value &&& byte)

/-- The flag tells what the eight bits of the result cannot: a carry, that no borrow was needed, or
    the bit that a shift lost. -/
def execPair (machine : Machine ρ) (x y : Register) : PairOp → Machine ρ :=
  let a := machine.register x
  let b := machine.register y
  fun
  | .skipEqual => machine.skipIf (a == b)
  | .skipUnequal => machine.skipIf (a != b)
  | .load => machine.setRegister x b
  | .or => machine.setRegister x (a ||| b)
  | .and => machine.setRegister x (a &&& b)
  | .xor => machine.setRegister x (a ^^^ b)
  | .add => machine.setWithFlag x (a + b) (if a.toNat + b.toNat > 0xFF then 1 else 0)
  | .subtract => machine.setWithFlag x (a - b) (if a > b then 1 else 0)
  | .subtractFrom => machine.setWithFlag x (b - a) (if b > a then 1 else 0)
  | .shiftRight => machine.setWithFlag x (a >>> 1) (a &&& 1)
  | .shiftLeft =>
      let lost := a &&& 0x80
      machine.setWithFlag x (a <<< 1)
        (if machine.settings.normalizeShiftFlag then lost >>> 7 else lost)

/-- Where the index stands after registers up to `x` were stored or loaded. -/
def indexAfterTransfer (machine : Machine ρ) (x : Register) : UInt16 :=
  if machine.settings.incrementIndex then machine.index + UInt16.ofNat (x.val + 1)
  else machine.index

def execRegister (machine : Machine ρ) (x : Register) : RegisterOp → Except Fault (Machine ρ)
  | .skipPressed => .ok (machine.skipIf (machine.keypad.isPressed (key machine)))
  | .skipReleased => .ok (machine.skipIf (!machine.keypad.isPressed (key machine)))
  | .readDelay => .ok (machine.setRegister x machine.delay)
  | .awaitKey => .ok { machine with waiting := some x }
  | .setDelay => .ok { machine with delay := machine.register x }
  | .setSound => .ok { machine with sound := machine.register x }
  | .addIndex => .ok { machine with index := machine.index + (machine.register x).toUInt16 }
  | .glyph => .ok { machine with index := (machine.register x &&& 0x0F).toUInt16 * 5 }
  | .digits => do
      let value := machine.register x
      let memory ← machine.memory.writeBlock machine.index.toNat
        [value / 100, value / 10 % 10, value % 10]
      .ok { machine with memory }
  | .store => do
      let memory ← machine.memory.writeBlock machine.index.toNat
        (machine.registers.toList.take (x.val + 1))
      .ok { machine with memory, index := machine.indexAfterTransfer x }
  | .load => do
      let bytes ← machine.memory.readBlock machine.index.toNat (x.val + 1 : Nat)
      let registers := Vector.ofFn fun k : Register =>
        if k ≤ x then bytes.getD k.val 0 else machine.register k
      .ok { machine with registers, index := machine.indexAfterTransfer x }
where
  /-- Of the number of a key only the last digit counts. -/
  key (machine : Machine ρ) : Nibble :=
    .ofNat (machine.register x).toNat

def execDraw (machine : Machine ρ) (x y : Register) (n : Nibble) : Except Fault (Machine ρ) := do
  let (collision, display) ←
    machine.display.draw machine.memory machine.index.toNat n.val (machine.register x).toNat
      (machine.register y).toNat
  .ok ({ machine with display }.setRegister flag (if collision then 1 else 0))

def exec [ByteSource ρ] (machine : Machine ρ) : Instruction → Except Fault (Machine ρ)
  | .bare op => machine.execBare op
  | .address op addr => machine.execAddress addr op
  | .immediate op x byte => .ok (machine.execImmediate x byte op)
  | .draw x y n => machine.execDraw x y n
  | .pair op x y => .ok (machine.execPair x y op)
  | .register op x => machine.execRegister x op
  | .invalid word => .error (.invalidInstruction word (machine.pc - 2))

end Chip8.Machine
