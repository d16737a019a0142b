import Chip8.Assembly.Error
import Chip8.Assembly.Production
import Chip8.Text.Position
import Chip8.Text.Space
import Chip8.Text.Tabs

namespace Chip8.Assembly

/-! From a source text to its items. Columns of error reports count in the text with its tabs
    expanded. -/

/-- What is read from a place on, and the place where no further item matches. -/
def Cursor.items (productions : List Production) (cursor : Cursor) : List Reading × Cursor :=
  cursor.many (Cursor.item productions) (Cursor.item_shortens productions)

def malformedAt (text : List Char) (offset : Nat) : AsmError :=
  .malformed (Text.lineNumber text offset) (Text.columnNumber text offset)
    (String.ofList (Text.trim (Text.lineAround text offset)))

/-- A number that is not read ends everything at once, even if the text is malformed further on. -/
def parseWith (productions : List Production) (source : List Char) :
    Except Failure (List Item) := do
  let text := Text.expandTabs source
  let (readings, stop) := (Cursor.start text).items productions
  let items ← gather readings
  let remainder := stop.skip.rest
  if remainder.isEmpty then .ok items
  else .error (.report (malformedAt text (text.length - remainder.length)))

def parse (source : String) : Except Failure (List Item) :=
  parseWith Production.all source.toList

end Chip8.Assembly
