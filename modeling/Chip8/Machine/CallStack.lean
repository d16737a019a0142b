import Chip8.Machine.Fault

namespace Chip8

/-! Return addresses, the latest first. The depth is fixed when the machine is booted. -/

structure CallStack where
  depth : Int
  entries : List UInt16 := []
  deriving DecidableEq, Repr

namespace CallStack

def size (stack : CallStack) : Nat :=
  stack.entries.length

def push (stack : CallStack) (address : UInt16) : Except Fault CallStack :=
  if stack.depth ≤ stack.size then .error (.ofDepth stack.depth)
  else .ok { stack with entries := address :: stack.entries }

def pop (stack : CallStack) : Except Fault (UInt16 × CallStack) :=
  match stack.entries with
  | [] => .error .stackUnderflow
  | address :: rest => .ok (address, { stack with entries := rest })

end CallStack

end Chip8
