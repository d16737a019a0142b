import Chip8.Assembly.Layout
import Chip8.Assembly.Parse

namespace Chip8.Assembly

/-! The assembler as a whole. Reports on the shape of the text come before all others, reports on
    labels and bytes before those on operands and words. -/

def assembleItems (items : List Item) : Except Failure (List UInt8) :=
  match ({} : Layout).addAll items with
  | (.ok (), layout) => layout.emit
  | (.error reason, _) => .error reason

def assemble (source : String) : Except Failure (List UInt8) := do
  assembleItems (← parse source)

end Chip8.Assembly
