import Chip8.Assembly.Error
import Chip8.Assembly.Item
import Chip8.Instruction.Basic

namespace Chip8.Assembly

/-! Laying a program out gives every label its address before the first byte is written, so that an
    operand may name a label that comes later in the text. -/

inductive Command
  | instruction (opcode : Opcode) (operands : List Operand)
  | bytes (values : List UInt8)
  | words (values : List Operand)
  deriving DecidableEq, Repr

/-- The number of bytes that a command takes up in the program. -/
def Command.size : Command → Nat
  | instruction _ _ => 2
  | bytes values => values.length
  | words values => 2 * values.length

structure Layout where
  /-- The address of the byte after the last command. Programs begin at 0x200. -/
  offset : Nat := 0x200
  labels : List (String × Nat) := []
  commands : Array Command := #[]
  deriving DecidableEq, Repr

namespace Layout

def place (layout : Layout) (command : Command) : Layout :=
  { layout with
    offset := layout.offset + command.size
    commands := layout.commands.push command }

def byte (value : Int) : Except Failure UInt8 :=
  if 0 ≤ value ∧ value ≤ 0xFF then .ok (UInt8.ofInt value)
  else .error (AsmError.byteRange value).raised

def add (layout : Layout) : Item → Except Failure Layout
  | .label name =>
      if (layout.labels.lookup name).isSome then .error (.report (.duplicateLabel name))
      else .ok { layout with labels := layout.labels ++ [(name, layout.offset)] }
  | .instruction opcode operands => .ok (layout.place (.instruction opcode operands))
  | .bytes values => do .ok (layout.place (.bytes (← values.mapM byte)))
  | .words values => .ok (layout.place (.words values))

/-- As far as the items can be added, and why not further. -/
def addAll (layout : Layout) : List Item → Except Failure Unit × Layout
  | [] => (.ok (), layout)
  | item :: rest =>
      match layout.add item with
      | .ok next => next.addAll rest
      | .error reason => (.error reason, layout)

def resolve (layout : Layout) : Operand → Except Failure Int
  | .number value => .ok value
  | .label name =>
      match layout.labels.lookup name with
      | some address => .ok address
      | none => .error (.report (.unknownLabel name))

/-- The high byte comes first. -/
def wordBytes (word : Int) : List UInt8 :=
  [UInt8.ofInt (word / 0x100), UInt8.ofInt word]

def word (layout : Layout) (operand : Operand) : Except Failure (List UInt8) := do
  let value ← layout.resolve operand
  if 0 ≤ value ∧ value ≤ 0xFFFF then .ok (wordBytes value)
  else .error (AsmError.wordRange value).raised

/-- The first operand that its field does not admit, in the order of the fields. -/
def checkOperands (opcode : Opcode) (values : List Int) : Except Failure Unit :=
  match (opcode.fields.zip values).find? fun entry => ¬ entry.1.Admits entry.2 with
  | some (field, value) => .error (.report (.operandRange opcode field value))
  | none =>
      if values.length = opcode.fields.length then .ok ()
      else .error (.operandCount opcode values.length)

/-- All operands are resolved before the first of them is checked. -/
def operandValues (layout : Layout) (opcode : Opcode) (operands : List Operand) :
    Except Failure (List Int) := do
  let values ← operands.mapM layout.resolve
  checkOperands opcode values
  .ok values

def commandBytes (layout : Layout) : Command → Except Failure (List UInt8)
  | .instruction opcode operands => do
      .ok (wordBytes (opcode.encode (← layout.operandValues opcode operands)))
  | .bytes values => .ok values
  | .words values => do .ok (← values.mapM layout.word).flatten

def emit (layout : Layout) : Except Failure (List UInt8) := do
  .ok (← layout.commands.toList.mapM layout.commandBytes).flatten

end Layout

end Chip8.Assembly
