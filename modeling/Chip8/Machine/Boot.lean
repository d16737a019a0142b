import Chip8.Machine.Basic

namespace Chip8.Machine

/-- A machine with a program in its memory. Its display and its stack take their settings over here
    and do not follow later changes. -/
def boot {ρ : Type} (rom : List UInt8) (settings : Settings) (random : ρ) :
    Except Fault (Machine ρ) := do
  let memory ← Memory.initial.loadRom rom
  .ok {
    memory
    stack := { depth := settings.stackDepth }
    display := { clip := settings.clipSprites }
    random
    settings }

end Chip8.Machine
