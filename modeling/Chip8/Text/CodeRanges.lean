namespace Chip8.Text

/-! Classes of characters as tables: ranges of code points in ascending order, both ends
    included. -/

def inRanges (ranges : List (Nat × Nat)) (character : Char) : Bool :=
  ranges.any fun range => range.1 ≤ character.toNat && character.toNat ≤ range.2

end Chip8.Text
