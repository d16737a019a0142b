import Chip8.Instruction.Opcode
import Chip8.Numeral

namespace Chip8

/-! How an instruction is written: a mnemonic, then its slots with commas between them. The same
    table serves the printing of instructions and the assembler, so the two cannot drift apart. -/

inductive Slot
  | operand (field : Field)
  | fixed (words : List String)
  deriving DecidableEq, Repr

structure Form where
  mnemonic : String
  slots : List Slot
  deriving DecidableEq, Repr

namespace Slot

def x : Slot := operand .x
def y : Slot := operand .y
def byte : Slot := operand .byte
def addr : Slot := operand .addr

/-- The index register written as a place in memory. -/
def atIndex : Slot := fixed ["[", "I", "]"]

end Slot

def BareOp.form : BareOp → Form
  | clearScreen => ⟨"CLS", []⟩
  | ret => ⟨"RET", []⟩

def AddressOp.form : AddressOp → Form
  | jump => ⟨"JP", [.addr]⟩
  | call => ⟨"CALL", [.addr]⟩
  | loadIndex => ⟨"LD", [.fixed ["I"], .addr]⟩
  | jumpOffset => ⟨"JP", [.fixed ["V0"], .addr]⟩

def ImmediateOp.form : ImmediateOp → Form
  | skipEqual => ⟨"SE", [.x, .byte]⟩
  | skipUnequal => ⟨"SNE", [.x, .byte]⟩
  | load => ⟨"LD", [.x, .byte]⟩
  | add => ⟨"ADD", [.x, .byte]⟩
  | random => ⟨"RND", [.x, .byte]⟩

def PairOp.form : PairOp → Form
  | skipEqual => ⟨"SE", [.x, .y]⟩
  | load => ⟨"LD", [.x, .y]⟩
  | or => ⟨"OR", [.x, .y]⟩
  | and => ⟨"AND", [.x, .y]⟩
  | xor => ⟨"XOR", [.x, .y]⟩
  | add => ⟨"ADD", [.x, .y]⟩
  | subtract => ⟨"SUB", [.x, .y]⟩
  | shiftRight => ⟨"SHR", [.x, .y]⟩
  | subtractFrom => ⟨"SUBN", [.x, .y]⟩
  | shiftLeft => ⟨"SHL", [.x, .y]⟩
  | skipUnequal => ⟨"SNE", [.x, .y]⟩

def RegisterOp.form : RegisterOp → Form
  | skipPressed => ⟨"SKP", [.x]⟩
  | skipReleased => ⟨"SKNP", [.x]⟩
  | readDelay => ⟨"LD", [.x, .fixed ["DT"]]⟩
  | awaitKey => ⟨"LD", [.x, .fixed ["K"]]⟩
  | setDelay => ⟨"LD", [.fixed ["DT"], .x]⟩
  | setSound => ⟨"LD", [.fixed ["ST"], .x]⟩
  | addIndex => ⟨"ADD", [.fixed ["I"], .x]⟩
  | glyph => ⟨"LD", [.fixed ["F"], .x]⟩
  | digits => ⟨"LD", [.fixed ["B"], .x]⟩
  | store => ⟨"LD", [.atIndex, .x]⟩
  | load => ⟨"LD", [.x, .atIndex]⟩

def Opcode.form : Opcode → Form
  | bare op => op.form
  | address op => op.form
  | immediate op => op.form
  | draw => ⟨"DRW", [.x, .y, .operand .n]⟩
  | pair op => op.form
  | register op => op.form

def Field.text : Field → Int → String
  | x, operand => "V" ++ Numeral.hex 0 operand
  | y, operand => "V" ++ Numeral.hex 0 operand
  | n, operand => Numeral.decimal operand
  | byte, operand => "0x" ++ Numeral.hex 2 operand
  | addr, operand => "0x" ++ Numeral.hex 3 operand

/-- Slots with the operands put into their places in order. -/
def slotTexts : List Slot → List Int → List String
  | .fixed words :: slots, operands => String.join words :: slotTexts slots operands
  | .operand field :: slots, operand :: operands =>
      field.text operand :: slotTexts slots operands
  | _, _ => []

def Opcode.text (opcode : Opcode) (operands : List Int) : String :=
  let slots := slotTexts opcode.form.slots operands
  if slots.isEmpty then opcode.form.mnemonic
  else opcode.form.mnemonic ++ " " ++ ", ".intercalate slots

end Chip8
