import Chip8.Bits

namespace Chip8

/-! The operand fields of an instruction word. Every instruction reads a selection of them. -/

inductive Field
  | x
  | y
  | n
  | byte
  | addr
  deriving DecidableEq, Repr

namespace Field

def name : Field → String
  | x => "x"
  | y => "y"
  | n => "n"
  | byte => "byte"
  | addr => "addr"

def limit : Field → Nat
  | x => 0xF
  | y => 0xF
  | n => 0xF
  | byte => 0xFF
  | addr => 0xFFF

/-- What a word holds in the field. -/
def read : Field → Int → Int
  | x, word => word / 0x100 % 0x10
  | y, word => word / 0x10 % 0x10
  | n, word => word % 0x10
  | byte, word => word % 0x100
  | addr, word => word % 0x1000

/-- An operand moved to its place in the word. A register number is not cut to its four bits, so
    one out of range reaches into the bits of the code. -/
def place : Field → Int → Int
  | x, operand => operand * 0x100
  | y, operand => operand * 0x10
  | n, operand => operand % 0x10
  | byte, operand => operand % 0x100
  | addr, operand => operand % 0x1000

def Admits (field : Field) (operand : Int) : Prop :=
  0 ≤ operand ∧ operand ≤ field.limit

instance (field : Field) (operand : Int) : Decidable (field.Admits operand) := by
  unfold Admits
  infer_instance

theorem admits_read (field : Field) (word : Int) : field.Admits (field.read word) := by
  cases field <;> simp only [Admits, limit, read] <;> omega

end Field

end Chip8
