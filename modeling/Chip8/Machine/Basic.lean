import Chip8.Machine.CallStack
import Chip8.Machine.Framebuffer
import Chip8.Machine.Keypad
import Chip8.Machine.Settings
import Chip8.Random.Source

namespace Chip8

/-! The machine's state, which is all that its further course depends on. -/

structure Machine (ρ : Type) where
  /-- The address of the next instruction. -/
  pc : UInt16 := 0x200
  index : UInt16 := 0
  registers : Vector UInt8 16 := Vector.replicate 16 0
  delay : UInt8 := 0
  sound : UInt8 := 0
  /-- The register that the next key pressed goes into, while the machine waits for one. -/
  waiting : Option Register := none
  memory : Memory
  stack : CallStack
  display : Framebuffer
  keypad : Keypad := {}
  random : ρ
  settings : Settings

namespace Machine

variable {ρ : Type}

/-- The last register, into which carries, borrows, lost bits and collisions go. -/
def flag : Register := .ofNat 15

def blocked (machine : Machine ρ) : Bool :=
  machine.waiting.isSome

def soundActive (machine : Machine ρ) : Bool :=
  machine.sound > 0

def register (machine : Machine ρ) (x : Register) : UInt8 :=
  machine.registers.get x

def setRegister (machine : Machine ρ) (x : Register) (value : UInt8) : Machine ρ :=
  { machine with registers := machine.registers.set x value x.lt }

/-- The flag is written last, so it is what remains when it is the target as well. -/
def setWithFlag (machine : Machine ρ) (x : Register) (value carried : UInt8) : Machine ρ :=
  (machine.setRegister x value).setRegister flag carried

def skipIf (machine : Machine ρ) (condition : Bool) : Machine ρ :=
  if condition then { machine with pc := machine.pc + 2 } else machine

/-- Both timers count down and stop at zero. -/
def tickTimers (machine : Machine ρ) : Machine ρ :=
  { machine with
    delay := if machine.delay > 0 then machine.delay - 1 else 0
    sound := if machine.sound > 0 then machine.sound - 1 else 0 }

end Machine

end Chip8
