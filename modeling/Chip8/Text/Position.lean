namespace Chip8.Text

/-! Places in a text. Lines end at line feeds alone; lines and columns are counted from one. -/

def lineNumber (text : List Char) (offset : Nat) : Nat :=
  (text.take offset).count '\n' + 1

def lineStart (text : List Char) (offset : Nat) : List Char :=
  ((text.take offset).reverse.takeWhile (· != '\n')).reverse

def columnNumber (text : List Char) (offset : Nat) : Nat :=
  (lineStart text offset).length + 1

/-- The whole line around the place, without its line feed. -/
def lineAround (text : List Char) (offset : Nat) : List Char :=
  lineStart text offset ++ (text.drop offset).takeWhile (· != '\n')

end Chip8.Text
