import Chip8.Assembly.Assemble

namespace Chip8.Assembly

/-! A listing tells what the assembler did, line by line, up to the first error. -/

namespace Layout

def labelLine (entry : String × Nat) : String :=
  "Label " ++ entry.1 ++ " @ 0x" ++ Numeral.hex 0 entry.2

def commandLine? (layout : Layout) : Command → Option String
  | .instruction opcode operands =>
      match layout.operandValues opcode operands with
      | .ok values => some ("Emitting " ++ opcode.text values)
      | .error _ => none
  | _ => none

def emitted (layout : Layout) : List Command :=
  layout.commands.toList.takeWhile fun command => (layout.commandBytes command).isOk

end Layout

def listingOfItems (items : List Item) : List String :=
  match ({} : Layout).addAll items with
  | (.ok (), layout) =>
      layout.labels.map Layout.labelLine ++ layout.emitted.filterMap layout.commandLine?
  | (.error _, layout) => layout.labels.map Layout.labelLine

def listing (source : String) : List String :=
  match parse source with
  | .ok items => listingOfItems items
  | .error _ => []

end Chip8.Assembly
