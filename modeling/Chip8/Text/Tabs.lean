namespace Chip8.Text

/-! Tabs as blanks up to the next column that is a multiple of eight. Columns are counted from zero
    and begin anew after a line feed or a carriage return. -/

def expandTabsFrom (column : Nat) : List Char → List Char
  | [] => []
  | character :: rest =>
      if character = '\t' then
        let width := 8 - column % 8
        List.replicate width ' ' ++ expandTabsFrom (column + width) rest
      else if character = '\n' ∨ character = '\r' then character :: expandTabsFrom 0 rest
      else character :: expandTabsFrom (column + 1) rest

def expandTabs (text : List Char) : List Char :=
  expandTabsFrom 0 text

end Chip8.Text
