import Chip8.Machine.Exec

namespace Chip8.Machine

/-! One step of the machine. A step that fails still leaves a machine behind, with which a session
    may go on. -/

variable {ρ : Type}

/-- A waiting machine takes the lowest key that is pressed. -/
def pollKeypad (machine : Machine ρ) (x : Register) : Machine ρ :=
  match machine.keypad.firstPressed with
  | some key => { machine.setRegister x (UInt8.ofNat key.val) with waiting := none }
  | none => machine

def fetch (machine : Machine ρ) : Except Fault UInt16 :=
  machine.memory.read16 machine.pc.toNat

def advance (machine : Machine ρ) : Machine ρ :=
  { machine with pc := machine.pc + 2 }

/-- The instruction that was executed, if any: a machine that waits for a key executes none. -/
def step [ByteSource ρ] (machine : Machine ρ) : Except Fault (Option Instruction) × Machine ρ :=
  match machine.waiting with
  | some x => (.ok none, machine.pollKeypad x)
  | none =>
      match machine.fetch with
      | .error fault => (.error fault, machine)
      | .ok word =>
          let instruction := Instruction.decode word.toNat
          match machine.advance.exec instruction with
          | .error fault => (.error fault, machine.advance)
          | .ok after => (.ok (some instruction), after)

end Chip8.Machine
