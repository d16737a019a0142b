namespace Chip8.Bits

/-! Bitwise union on all integers, each read as an infinite row of bits in two's complement. -/

/-- The bits of `left` that `right` lacks. -/
def difference (left right : Nat) : Nat :=
  left ^^^ (left &&& right)

/-- A negative number `-1 - n` has all the bits that `n` lacks. -/
def union : Int → Int → Int
  | .ofNat left, .ofNat right => .ofNat (left ||| right)
  | .ofNat left, .negSucc right => .negSucc (difference right left)
  | .negSucc left, .ofNat right => .negSucc (difference left right)
  | .negSucc left, .negSucc right => .negSucc (left &&& right)

theorem union_natCast (left right : Nat) : union left right = (left ||| right : Nat) := rfl

end Chip8.Bits
