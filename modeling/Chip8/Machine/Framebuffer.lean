import Chip8.Machine.Memory

namespace Chip8

/-! The display: 32 rows of 64 pixels. The leftmost pixel of a row is its most significant bit. -/

structure Framebuffer where
  clip : Bool
  rows : Vector (BitVec 64) 32 := Vector.replicate 32 0
  deriving DecidableEq

namespace Framebuffer

def isSet (display : Framebuffer) (x : Nat) (y : Fin 32) : Bool :=
  display.rows[y].getMsbD x

/-- Coordinates beyond the edges wrap around. -/
def pixel (display : Framebuffer) (x y : Int) : Bool :=
  display.isSet (x % 64).toNat (Fin.ofNat 32 (y % 32).toNat)

def fill (display : Framebuffer) (lit : Bool) : Framebuffer :=
  { display with rows := Vector.replicate 32 (if lit then BitVec.allOnes 64 else 0) }

def clear (display : Framebuffer) : Framebuffer :=
  display.fill false

/-- A line of a sprite as it falls on a row, its first bit at column `x`. -/
def spriteLine (clip : Bool) (bits : UInt8) (x : Nat) : BitVec 64 :=
  let line : BitVec 64 := bits.toBitVec ++ 0#56
  if clip then line >>> x else line.rotateRight x

/-- The lines of a sprite from row `y` on, each inverting the pixels under its bits. The flag says
    whether a pixel was turned off. -/
def stamp (display : Framebuffer) (x y : Nat) : List UInt8 → Bool × Framebuffer
  | [] => (false, display)
  | bits :: rest =>
      if display.clip && 32 ≤ y then (false, display)
      else
        let row : Fin 32 := Fin.ofNat 32 y
        let before := display.rows[row]
        let line := spriteLine display.clip bits x
        let (later, final) :=
          stamp { display with rows := display.rows.set row (before ^^^ line) } x (y + 1) rest
        ((before &&& line) != 0 || later, final)

/-- A sprite's origin always wraps around. Nothing is drawn of a sprite that is not wholly in
    memory. -/
def draw (display : Framebuffer) (memory : Memory) (index size x y : Int) :
    Except Fault (Bool × Framebuffer) := do
  let sprite ← memory.readBlock index size
  .ok (display.stamp (x % 64).toNat (y % 32).toNat sprite)

end Framebuffer

end Chip8
