namespace Chip8

/-! Where the machine takes its random bytes from. Drawing a byte leaves a source for the next. -/

class ByteSource (ρ : Type) where
  draw : ρ → UInt8 × ρ

/-- A list of bytes that starts over at its end. -/
structure ByteCycle where
  values : List UInt8
  upcoming : List UInt8 := values
  deriving DecidableEq, Repr

namespace ByteCycle

/-- A cycle without values gives zeros. -/
def draw (cycle : ByteCycle) : UInt8 × ByteCycle :=
  match cycle.upcoming with
  | value :: rest => (value, { cycle with upcoming := rest })
  | [] =>
      match cycle.values with
      | value :: rest => (value, { cycle with upcoming := rest })
      | [] => (0, cycle)

instance : ByteSource ByteCycle := ⟨draw⟩

end ByteCycle

end Chip8
