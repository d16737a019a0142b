import Chip8.Instruction.Opcode
import Chip8.Numeral

namespace Chip8.Assembly

/-! Why a source text has no program. The wording is in `message` alone. -/

/-- What the assembler finds wrong with a text. -/
inductive AsmError
  | malformed (line column : Nat) (text : String)
  | duplicateLabel (name : String)
  | byteRange (value : Int)
  | unknownLabel (name : String)
  | operandRange (opcode : Opcode) (field : Field) (value : Int)
  | wordRange (value : Int)
  deriving DecidableEq, Repr

def AsmError.message : AsmError → String
  | malformed line column text =>
      "Syntax error at line " ++ Numeral.decimal line ++ ", column " ++ Numeral.decimal column ++
        ": " ++ text
  | duplicateLabel name => "Duplicate label " ++ name
  | byteRange value => "Byte " ++ Numeral.decimal value ++ " out of range"
  | unknownLabel name => "Unknown label " ++ name
  | operandRange opcode field value =>
      opcode.name ++ " operand " ++ field.name ++ "=" ++ Numeral.markedHex value ++
        " out of range"
  | wordRange value => "Word " ++ Numeral.decimal value ++ " out of range"

/-- Besides the reports on the text there are two failures of another kind: a number with too many
    digits, and an instruction that is not given as many operands as it has fields. -/
inductive Failure
  | report (error : AsmError)
  | digitLimit (given : Option Nat)
  | operandCount (opcode : Opcode) (given : Nat)
  deriving DecidableEq, Repr

namespace Failure

/-- Names in quotation marks, as a sentence lists them. -/
def listed : List String → String
  | [] => ""
  | [name] => "'" ++ name ++ "'"
  | [first, second] => "'" ++ first ++ "' and '" ++ second ++ "'"
  | names =>
      ", ".intercalate (names.dropLast.map fun name => "'" ++ name ++ "'") ++
        ", and '" ++ names.getLastD "" ++ "'"

def arguments (count : Nat) : String :=
  if count = 1 then "argument" else "arguments"

/-- The instruction itself counts as an argument where there are too many. -/
def countText (opcode : Opcode) (given : Nat) : String :=
  let taken := opcode.fields.length + 1
  let missing := opcode.fields.drop given
  opcode.name ++ ".__init__() " ++
    if opcode.fields.length < given then
      "takes " ++ Numeral.decimal taken ++ " positional " ++ arguments taken ++ " but " ++
        Numeral.decimal (given + 1) ++ " were given"
    else
      "missing " ++ Numeral.decimal missing.length ++ " required positional " ++
        arguments missing.length ++ ": " ++ listed (missing.map Field.name)

def message : Failure → String
  | report error => error.message
  | digitLimit given => Numeral.limitText given
  | operandCount opcode given => countText opcode given

end Failure

namespace AsmError

/-- Whether the numbers in a report can be written. Operands out of range are told in hexadecimal,
    and no text has lines enough to bring their number near the limit. -/
def Writable : AsmError → Prop
  | byteRange value => Numeral.Writable value
  | wordRange value => Numeral.Writable value
  | _ => True

instance : DecidablePred Writable
  | byteRange value => inferInstanceAs (Decidable (Numeral.Writable value))
  | wordRange value => inferInstanceAs (Decidable (Numeral.Writable value))
  | malformed .. | duplicateLabel _ | unknownLabel _ | operandRange .. => .isTrue trivial

/-- What comes of a report: where it cannot be written, the attempt to do so fails instead. -/
def raised (error : AsmError) : Failure :=
  if error.Writable then .report error else .digitLimit none

end AsmError

/-- All results, or else the first failure among them. -/
def gather {α : Type} (results : List (Except Failure α)) : Except Failure (List α) :=
  results.mapM id

end Chip8.Assembly
