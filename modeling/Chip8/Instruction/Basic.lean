import Chip8.Instruction.Form
import Chip8.Nibble

namespace Chip8

/-! An instruction as the machine executes it, with every operand in range, and the two directions
    between instructions and words. -/

abbrev Register := Nibble

abbrev Address := Fin 4096

def Address.ofNat (number : Nat) : Address :=
  Fin.ofNat 4096 number

inductive Instruction
  | bare (op : BareOp)
  | address (op : AddressOp) (addr : Address)
  | immediate (op : ImmediateOp) (x : Register) (byte : UInt8)
  | draw (x y : Register) (n : Nibble)
  | pair (op : PairOp) (x y : Register)
  | register (op : RegisterOp) (x : Register)
  | invalid (word : Int)
  deriving DecidableEq, Repr

/-- The operand in one of the three fields of four bits. -/
def Nibble.ofWord (field : Field) (word : Int) : Nibble :=
  .ofNat (field.read word).toNat

namespace Opcode

/-- What remains of a word when the digits that hold operands are taken as zero. Only the words
    without operands are compared whole, at any size and sign. -/
def fixedPart : Opcode → Int → Int
  | bare _, word => word
  | address _, word => word / 0x1000 % 0x10 * 0x1000
  | immediate _, word => word / 0x1000 % 0x10 * 0x1000
  | draw, word => word / 0x1000 % 0x10 * 0x1000
  | pair _, word => word / 0x1000 % 0x10 * 0x1000 + word % 0x10
  | register _, word => word / 0x1000 % 0x10 * 0x1000 + word % 0x100

def Matches (opcode : Opcode) (word : Int) : Prop :=
  opcode.fixedPart word = opcode.code

instance (opcode : Opcode) (word : Int) : Decidable (opcode.Matches word) := by
  unfold Matches
  infer_instance

/-- The first match, the tables being tried in order. -/
def search (tables : List (List Opcode)) (word : Int) : Option Opcode :=
  tables.findSome? fun table => table.find? fun opcode => opcode.Matches word

def ofWord? (word : Int) : Option Opcode :=
  search [exact, byLeadingDigit, byOuterDigits, byLowByte] word

/-- The instruction that the operation makes of the operands in a word, whatever the word's other
    digits are. -/
def instruction : Opcode → Int → Instruction
  | bare op, _ => .bare op
  | address op, word => .address op (.ofNat (Field.addr.read word).toNat)
  | immediate op, word =>
      .immediate op (.ofWord .x word) (UInt8.ofNat (Field.byte.read word).toNat)
  | draw, word => .draw (.ofWord .x word) (.ofWord .y word) (.ofWord .n word)
  | pair op, word => .pair op (.ofWord .x word) (.ofWord .y word)
  | register op, word => .register op (.ofWord .x word)

/-- The word of an operation with operands that may be out of range. -/
def encode (opcode : Opcode) (operands : List Int) : Int :=
  (opcode.fields.zip operands).foldl
    (fun word entry => Bits.union word (entry.1.place entry.2)) opcode.code

end Opcode

namespace Instruction

/-- Total on the integers: a word that no operation matches is kept as it is. -/
def decode (word : Int) : Instruction :=
  match Opcode.ofWord? word with
  | some opcode => opcode.instruction word
  | none => .invalid word

/-- An instruction is either an operation with its operands or a word that stands for none. -/
def elim {α : Type} (known : Opcode → List Int → α) (unknown : Int → α) : Instruction → α
  | bare op => known (.bare op) []
  | address op addr => known (.address op) [addr.val]
  | immediate op x byte => known (.immediate op) [x.val, byte.toNat]
  | draw x y n => known .draw [x.val, y.val, n.val]
  | pair op x y => known (.pair op) [x.val, y.val]
  | register op x => known (.register op) [x.val]
  | invalid word => unknown word

def opcode? : Instruction → Option Opcode :=
  elim (fun opcode _ => some opcode) (fun _ => none)

def operands : Instruction → List Int :=
  elim (fun _ operands => operands) (fun word => [word])

def encode : Instruction → Int :=
  elim Opcode.encode id

def name : Instruction → String :=
  elim (fun opcode _ => opcode.name) (fun _ => "Invalid")

def text : Instruction → String :=
  elim Opcode.text (fun word => "INVALID 0x" ++ Numeral.hex 4 word)

end Instruction

end Chip8
