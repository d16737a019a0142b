namespace Chip8

/-! Four bits, which is what numbers a register, a key and the lines of a sprite. -/

abbrev Nibble := Fin 16

/-- The last hexadecimal digit of a number. -/
def Nibble.ofNat (number : Nat) : Nibble :=
  Fin.ofNat 16 number

theorem Nibble.lt (digit : Nibble) : digit.val < 16 :=
  digit.isLt

end Chip8
