import Chip8.Numeral

namespace Chip8

/-! What stops the machine. The wording is in `message` alone. -/

inductive Fault
  | memoryViolation (address : Int)
  | stackOverflow (depth : Int)
  | stackUnderflow
  | romTooLarge (size : Nat)
  | invalidInstruction (word : Int) (address : UInt16)
  /-- A number has too many digits to be told. -/
  | digitLimit
  deriving DecidableEq, Repr

namespace Fault

def message : Fault → String
  | memoryViolation address => "Memory access out of range at 0x" ++ Numeral.hex 0 address
  | stackOverflow depth => "Call stack exceeds " ++ Numeral.decimal depth ++ " entries"
  | stackUnderflow => "Return with an empty call stack"
  | romTooLarge size =>
      "ROM of " ++ Numeral.decimal size ++ " bytes exceeds 3584 bytes of program memory"
  | invalidInstruction word address =>
      "Invalid instruction 0x" ++ Numeral.hex 4 word ++ " at 0x" ++ Numeral.hex 3 address.toNat
  | digitLimit => Numeral.limitText none

/-- What is said of a stack that is full. Where its depth cannot be written, the attempt to do so
    fails instead. -/
def ofDepth (depth : Int) : Fault :=
  if Numeral.Writable depth then .stackOverflow depth else .digitLimit

end Fault

end Chip8
