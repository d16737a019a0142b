import Chip8.Numeral
import Chip8.Text.Printable

namespace Chip8.Text

/-! Texts between quotes, on one line and without characters that cannot be seen. -/

/-- The quotes are double if the text has a single one and no double one. -/
def quotationMark (text : List Char) : Char :=
  if text.contains '\'' && !text.contains '"' then '"' else '\''

/-- A character by its code, in the least of two, four and eight digits that hold it. -/
def codeEscape (code : Nat) : List Char :=
  let digits (width : Nat) := (Numeral.signed Numeral.lowerDigit 16 width code).toList
  if code < 0x100 then '\\' :: 'x' :: digits 2
  else if code < 0x10000 then '\\' :: 'u' :: digits 4
  else '\\' :: 'U' :: digits 8

def escaped (mark character : Char) : List Char :=
  if character = mark || character = '\\' then ['\\', character]
  else if character = '\n' then ['\\', 'n']
  else if character = '\r' then ['\\', 'r']
  else if character = '\t' then ['\\', 't']
  else if isPrintable character then [character]
  else codeEscape character.toNat

def quoted (text : List Char) : List Char :=
  let mark := quotationMark text
  mark :: text.flatMap (escaped mark) ++ [mark]

end Chip8.Text
