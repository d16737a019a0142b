import Chip8.Machine.Framebuffer

namespace Chip8.Framebuffer

/-! The display as a picture, row by row from the top and each row from the left. -/

def row (bits : BitVec 64) : List Bool :=
  (List.range 64).map bits.getMsbD

def pixelRows (display : Framebuffer) : List (List Bool) :=
  display.rows.toList.map row

def toText (display : Framebuffer) (on off : String) : String :=
  "\n".intercalate (display.pixelRows.map fun pixels =>
    String.join (pixels.map fun lit => if lit then on else off))

inductive ColourError
  | component (value : Int)
  deriving DecidableEq, Repr

def ColourError.message : ColourError → String
  | component _ => "byte must be in range(0, 256)"

def component (value : Int) : Except ColourError UInt8 :=
  if 0 ≤ value ∧ value < 256 then .ok (UInt8.ofInt value) else .error (.component value)

/-- Colours have any number of components. Those of a colour that no pixel has are not looked at. -/
def toRgba (display : Framebuffer) (on off : List Int) : Except ColourError (List UInt8) := do
  let colours ← display.pixelRows.flatten.mapM fun lit =>
    (if lit then on else off).mapM component
  .ok colours.flatten

def defaultOn : List Int := [128, 0, 0, 255]

def defaultOff : List Int := [0, 0, 0, 255]

end Chip8.Framebuffer
