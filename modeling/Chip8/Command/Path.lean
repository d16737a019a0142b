import Chip8.Text.Quoted

namespace Chip8.Command

/-! Paths of files. Doubled separators and single dots mean nothing; double dots are kept as
    names. -/

/-- What the names of a path count from. -/
inductive Anchor
  | here
  | root
  /-- The root once more. Two slashes are kept apart from one and from three. -/
  | doubleRoot
  deriving DecidableEq, Repr

structure Path where
  anchor : Anchor := .here
  names : List String
  deriving DecidableEq, Repr

namespace Path

/-- The pieces of a text between the marks. -/
def pieces (mark : Char) : List Char → List (List Char)
  | [] => [[]]
  | character :: rest =>
      if character = mark then [] :: pieces mark rest
      else
        match pieces mark rest with
        | first :: more => (character :: first) :: more
        | [] => [[character]]

def ofText (text : String) : Path :=
  let anchor : Anchor := match (text.toList.takeWhile (· == '/')).length with
    | 0 => .here
    | 2 => .doubleRoot
    | _ => .root
  ⟨anchor, ((pieces '/' text.toList).map String.ofList).filter fun name =>
    name != "" && name != "."⟩

def text (path : Path) : String :=
  let names := "/".intercalate path.names
  match path.anchor with
  | .here => if path.names.isEmpty then "." else names
  | .root => "/" ++ names
  | .doubleRoot => "//" ++ names

/-- The last name, which is empty for the root and for the place where a command runs. -/
def name (path : Path) : String :=
  path.names.getLastD ""

def parent (path : Path) : Path :=
  { path with names := path.names.dropLast }

/-- The path as far as to so many names before its end. -/
def without (path : Path) (count : Nat) : Path :=
  { path with names := path.names.take (path.names.length - count) }

/-- A name without its suffix. The suffix begins at the last dot; a dot at either end of the name
    begins none. -/
def stem (name : List Char) : List Char :=
  let suffix := name.reverse.takeWhile (· != '.')
  let front := (name.reverse.dropWhile (· != '.')).drop 1
  if suffix.isEmpty || front.isEmpty then name else front.reverse

def withSuffix (path : Path) (suffix : String) : Path :=
  { path with
    names := path.names.dropLast ++ [String.ofList (stem path.name.toList) ++ suffix] }

def quoted (path : Path) : String :=
  String.ofList (Text.quoted path.text.toList)

end Path

end Chip8.Command
