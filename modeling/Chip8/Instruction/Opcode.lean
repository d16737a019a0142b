import Chip8.Instruction.Field

namespace Chip8

/-! Every operation of the machine, grouped by the operands that its word carries. -/

inductive BareOp
  | clearScreen
  | ret
  deriving DecidableEq, Repr

inductive AddressOp
  | jump
  | call
  | loadIndex
  | jumpOffset
  deriving DecidableEq, Repr

inductive ImmediateOp
  | skipEqual
  | skipUnequal
  | load
  | add
  | random
  deriving DecidableEq, Repr

inductive PairOp
  | skipEqual
  | load
  | or
  | and
  | xor
  | add
  | subtract
  | shiftRight
  | subtractFrom
  | shiftLeft
  | skipUnequal
  deriving DecidableEq, Repr

inductive RegisterOp
  | skipPressed
  | skipReleased
  | readDelay
  | awaitKey
  | setDelay
  | setSound
  | addIndex
  | glyph
  | digits
  | store
  | load
  deriving DecidableEq, Repr

inductive Opcode
  | bare (op : BareOp)
  | address (op : AddressOp)
  | immediate (op : ImmediateOp)
  | draw
  | pair (op : PairOp)
  | register (op : RegisterOp)
  deriving DecidableEq, Repr

/-- The word of the operation with every operand zero. -/
def BareOp.code : BareOp → Nat
  | clearScreen => 0x00E0
  | ret => 0x00EE

def AddressOp.code : AddressOp → Nat
  | jump => 0x1000
  | call => 0x2000
  | loadIndex => 0xA000
  | jumpOffset => 0xB000

def ImmediateOp.code : ImmediateOp → Nat
  | skipEqual => 0x3000
  | skipUnequal => 0x4000
  | load => 0x6000
  | add => 0x7000
  | random => 0xC000

def PairOp.code : PairOp → Nat
  | skipEqual => 0x5000
  | load => 0x8000
  | or => 0x8001
  | and => 0x8002
  | xor => 0x8003
  | add => 0x8004
  | subtract => 0x8005
  | shiftRight => 0x8006
  | subtractFrom => 0x8007
  | shiftLeft => 0x800E
  | skipUnequal => 0x9000

def RegisterOp.code : RegisterOp → Nat
  | skipPressed => 0xE09E
  | skipReleased => 0xE0A1
  | readDelay => 0xF007
  | awaitKey => 0xF00A
  | setDelay => 0xF015
  | setSound => 0xF018
  | addIndex => 0xF01E
  | glyph => 0xF029
  | digits => 0xF033
  | store => 0xF055
  | load => 0xF065

namespace Opcode

def code : Opcode → Nat
  | bare op => op.code
  | address op => op.code
  | immediate op => op.code
  | draw => 0xD000
  | pair op => op.code
  | register op => op.code

/-- The operand fields in the order in which operands are given. -/
def fields : Opcode → List Field
  | bare _ => []
  | address _ => [.addr]
  | immediate _ => [.x, .byte]
  | draw => [.x, .y, .n]
  | pair _ => [.x, .y]
  | register _ => [.x]

/-- The name under which error reports and listings speak of an operation. -/
def name : Opcode → String
  | bare .clearScreen => "Cls"
  | bare .ret => "Ret"
  | address .jump => "Jp"
  | address .call => "Call"
  | address .loadIndex => "LdI"
  | address .jumpOffset => "JpV0"
  | immediate .skipEqual => "SeByte"
  | immediate .skipUnequal => "SneByte"
  | immediate .load => "LdByte"
  | immediate .add => "AddByte"
  | immediate .random => "Rnd"
  | draw => "Drw"
  | pair .skipEqual => "SeReg"
  | pair .load => "LdReg"
  | pair .or => "Or"
  | pair .and => "And"
  | pair .xor => "Xor"
  | pair .add => "AddReg"
  | pair .subtract => "Sub"
  | pair .shiftRight => "Shr"
  | pair .subtractFrom => "Subn"
  | pair .shiftLeft => "Shl"
  | pair .skipUnequal => "SneReg"
  | register .skipPressed => "Skp"
  | register .skipReleased => "Sknp"
  | register .readDelay => "LdVxDt"
  | register .awaitKey => "LdVxK"
  | register .setDelay => "LdDtVx"
  | register .setSound => "LdStVx"
  | register .addIndex => "AddI"
  | register .glyph => "LdF"
  | register .digits => "LdB"
  | register .store => "LdIVx"
  | register .load => "LdVxI"

/-! Words are told apart by the digits that carry no operand. All four are fixed for the first
    group, the leading one for the second, the outer two for the third, and for the last group
    the leading one together with the low byte. -/

def exact : List Opcode := [bare .clearScreen, bare .ret]

def byLeadingDigit : List Opcode :=
  [address .jump, address .call, immediate .skipEqual, immediate .skipUnequal, immediate .load,
    immediate .add, address .loadIndex, address .jumpOffset, immediate .random, draw]

def byOuterDigits : List Opcode :=
  [pair .skipEqual, pair .load, pair .or, pair .and, pair .xor, pair .add, pair .subtract,
    pair .shiftRight, pair .subtractFrom, pair .shiftLeft, pair .skipUnequal]

def byLowByte : List Opcode :=
  [register .skipPressed, register .skipReleased, register .readDelay, register .awaitKey,
    register .setDelay, register .setSound, register .addIndex, register .glyph,
    register .digits, register .store, register .load]

def all : List Opcode := exact ++ byLeadingDigit ++ byOuterDigits ++ byLowByte

theorem mem_all (opcode : Opcode) : opcode ∈ all := by
  cases opcode with
  | draw => decide
  | _ op => cases op <;> decide

def named? (name : String) : Option Opcode :=
  all.find? (·.name == name)

end Opcode

end Chip8
