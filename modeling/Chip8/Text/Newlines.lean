namespace Chip8.Text

/-- Every line end as a single line feed, whether it was written as a line feed, as a carriage
    return, or as the one after the other. -/
def unifyNewlines : List Char → List Char
  | [] => []
  | '\r' :: '\n' :: rest => '\n' :: unifyNewlines rest
  | '\r' :: rest => '\n' :: unifyNewlines rest
  | character :: rest => character :: unifyNewlines rest

end Chip8.Text
