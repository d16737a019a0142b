import Chip8.Machine.Step

namespace Chip8.Machine

/-! Runs of many steps, the timers ticking at regular distances. -/

variable {ρ : Type}

/-- Whether the timers tick after a number of steps. A period of zero never ticks. -/
def ticksAfter (period : Int) (steps : Nat) : Bool :=
  period != 0 && (steps : Int) % period == 0

def tickAfter (machine : Machine ρ) (period : Int) (steps : Nat) : Machine ρ :=
  if ticksAfter period steps then machine.tickTimers else machine

/-- Up to `left` steps after `taken` earlier ones. The count in the answer includes the latter. -/
def executeFrom [ByteSource ρ] (period : Int) (taken : Nat) :
    Nat → Machine ρ → Except Fault Nat × Machine ρ
  | 0, machine => (.ok taken, machine)
  | left + 1, machine =>
      match machine.step with
      | (.error fault, after) => (.error fault, after)
      | (.ok _, after) =>
          let ticked := after.tickAfter period (taken + 1)
          if ticked.blocked then (.ok (taken + 1), ticked)
          else executeFrom period (taken + 1) left ticked

/-- Steps until the machine waits for a key or has taken as many as asked for. Where fewer than one
    are asked for, that number is the answer. -/
def execute [ByteSource ρ] (machine : Machine ρ) (cycles period : Int) :
    Except Fault Int × Machine ρ :=
  if cycles ≤ 0 then (.ok cycles, machine)
  else
    let (outcome, final) := executeFrom period 0 cycles.toNat machine
    (outcome.map Int.ofNat, final)

end Chip8.Machine
