namespace Chip8.Text

/-! Sequences of characters that command a terminal: an escape character and a bracket, then
    parameters, then intermediate characters, and a final character that says what to do. The three
    classes have no character in common, so a text has at most one sequence at its front. -/

def isParameter (character : Char) : Bool :=
  '0' ≤ character && character ≤ '?'

def isIntermediate (character : Char) : Bool :=
  ' ' ≤ character && character ≤ '/'

def isFinal (character : Char) : Bool :=
  '@' ≤ character && character ≤ '~'

/-- What follows the control sequence that a text begins with. -/
def afterControlSequence? : List Char → Option (List Char)
  | '\x1b' :: '[' :: rest =>
      match (rest.dropWhile isParameter).dropWhile isIntermediate with
      | command :: more => if isFinal command then some more else none
      | [] => none
  | _ => none

theorem afterControlSequence?_length_lt {text rest : List Char}
    (found : afterControlSequence? text = some rest) : rest.length < text.length := by
  unfold afterControlSequence? at found
  split at found
  · rename_i arguments
    split at found
    · rename_i command more remaining
      split at found
      · cases found
        have parameters := (List.dropWhile_suffix isParameter (l := arguments)).length_le
        have intermediates := (List.dropWhile_suffix isIntermediate
          (l := arguments.dropWhile isParameter)).length_le
        rw [remaining, List.length_cons] at intermediates
        simp only [List.length_cons]
        omega
      · contradiction
    · contradiction
  · contradiction

/-- What the removal of a sequence brings together makes no new one. -/
def withoutControlSequences : List Char → List Char
  | [] => []
  | character :: rest =>
      match _ : afterControlSequence? (character :: rest) with
      | some more => withoutControlSequences more
      | none => character :: withoutControlSequences rest
termination_by text => text.length
decreasing_by
  · exact afterControlSequence?_length_lt (by assumption)
  · simp

end Chip8.Text
