import Chip8.Text.CodeRanges

namespace Chip8.Text

/-! The characters that count as blank at the ends of a text. -/

def spaceRanges : List (Nat × Nat) :=
  [(0x9, 0xD), (0x1C, 0x20), (0x85, 0x85), (0xA0, 0xA0), (0x1680, 0x1680), (0x2000, 0x200A),
    (0x2028, 0x2029), (0x202F, 0x202F), (0x205F, 0x205F), (0x3000, 0x3000)]

def isSpace (character : Char) : Bool :=
  inRanges spaceRanges character

/-- A text without the characters of a class at its two ends. -/
def trimmed (isBlank : Char → Bool) (text : List Char) : List Char :=
  ((text.dropWhile isBlank).reverse.dropWhile isBlank).reverse

def trim (text : List Char) : List Char :=
  trimmed isSpace text

end Chip8.Text
