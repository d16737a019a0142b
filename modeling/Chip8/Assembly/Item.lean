import Chip8.Instruction.Opcode

namespace Chip8.Assembly

/-! What a source text consists of, once its layout and its spelling are gone. -/

inductive Operand
  | number (value : Int)
  | label (name : String)
  deriving DecidableEq, Repr

inductive Item
  | label (name : String)
  | instruction (opcode : Opcode) (operands : List Operand)
  | bytes (values : List Int)
  | words (values : List Operand)
  deriving DecidableEq, Repr

end Chip8.Assembly
