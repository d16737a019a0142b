import Chip8.Command.Place
import Chip8.Command.System

namespace Chip8.Command

/-! Plain files and the directories around them, as a system for commands to run on. There are no
    links, and nothing but its own kind keeps a file from being read or written. A path is followed
    name by name, and each name is looked up in a directory. -/

structure Files where
  entries : List (Place × List UInt8) := []
  /-- Directories that were made. Those around a file need not be among them. -/
  directories : List Place := []
  deriving DecidableEq, Repr

namespace Files

def ofList (contents : List (Path × List UInt8)) : Files :=
  { entries := contents.map fun entry => (entry.1.place, entry.2) }

def find? (files : Files) (place : Place) : Option (List UInt8) :=
  files.entries.lookup place

/-- What lies around the place where a command runs is a directory as well. -/
def IsDirectory (files : Files) (place : Place) : Prop :=
  place.names = [] ∨ place ∈ files.directories ∨ ∃ entry ∈ files.entries, place.Encloses entry.1

instance (files : Files) (place : Place) : Decidable (files.IsDirectory place) := by
  unfold IsDirectory
  infer_instance

/-- The most bytes in a name. -/
def nameLimit : Nat := 255

/-- The most bytes in the text of a path. -/
def pathLimit : Nat := 4095

/-- No path has a null character or too many bytes. That is found before any of its names is looked
    up. -/
def check (path : Path) : Except FileError Unit :=
  if path.text.toList.contains '\x00' then .error .nullCharacter
  else if path.text.utf8ByteSize > pathLimit then .error (.nameTooLong path)
  else .ok ()

/-- Where the names of a path lead from a place. There need not be anything where they end. -/
def follow (files : Files) (path : Path) (place : Place) : List String → Except FileError Place
  | [] => .ok place
  | name :: rest =>
      if files.IsDirectory place then
        if name.utf8ByteSize > nameLimit then .error (.nameTooLong path)
        else files.follow path (place.step name) rest
      else if (files.find? place).isSome then .error (.notDirectory path)
      else .error (.notFound path)

def locate (files : Files) (path : Path) : Except FileError Place := do
  check path
  files.follow path path.start path.names

def read (files : Files) (path : Path) : Except FileError (List UInt8) := do
  let place ← files.locate path
  if files.IsDirectory place then .error (.isDirectory path)
  else
    match files.find? place with
    | some bytes => .ok bytes
    | none => .error (.notFound path)

/-- The entry for a place, the other entries being kept as they are. -/
def insert (files : Files) (place : Place) (bytes : List UInt8) : Files :=
  { files with entries := (place, bytes) :: files.entries.filter fun entry => entry.1 ≠ place }

theorem find?_insert_self (files : Files) (place : Place) (bytes : List UInt8) :
    (files.insert place bytes).find? place = some bytes := by
  simp only [find?, insert, List.lookup_cons, beq_self_eq_true]

theorem find?_insert_of_ne (files : Files) {place other : Place} (bytes : List UInt8)
    (different : other ≠ place) : (files.insert place bytes).find? other = files.find? other := by
  simp only [find?, insert, List.lookup_cons, beq_false_of_ne different]
  induction files.entries with
  | nil => rfl
  | cons entry rest ih =>
      obtain ⟨key, content⟩ := entry
      simp only [ne_eq, decide_not] at ih
      by_cases replaced : key = place
      · simp [replaced, List.lookup_cons, beq_false_of_ne different, ih]
      · simp [replaced, List.lookup_cons, ih]

/-- Makes the directories that are missing on the way. From the first missing one on they are made
    one at a time, so that a file among them counts as standing where a directory was to be made.
    Those that were made stay, whatever fails after them. How many may be missing at once is for
    `depthLimit` to say. -/
def makeDirectories (files : Files) (depthLimit : Nat) (path : Path) (place : Place)
    (making : Bool) : List String → Except FileError Unit × Files
  | [] => (.ok (), files)
  | name :: rest =>
      let next := place.step name
      -- Until one is made, the system is asked for all of them at once.
      let about := if making then path.without rest.length else path
      if name.utf8ByteSize > nameLimit then (.error (.nameTooLong about), files)
      else if files.IsDirectory next then
        files.makeDirectories depthLimit path next making rest
      else if (files.find? next).isSome then
        (.error (if making || rest.isEmpty then .occupied about else .notDirectory about), files)
      else if !making && rest.length ≥ depthLimit then (.error .tooDeep, files)
      else
        { files with directories := next :: files.directories }.makeDirectories depthLimit path next
          true rest

def makeParents (files : Files) (depthLimit : Nat) (path : Path) : Except FileError Unit × Files :=
  match check path.parent with
  | .error reason => (.error reason, files)
  | .ok () => files.makeDirectories depthLimit path.parent path.start false path.parent.names

def write (files : Files) (path : Path) (bytes : List UInt8) : Except FileError Unit × Files :=
  match files.locate path with
  | .error reason => (.error reason, files)
  | .ok place =>
      if files.IsDirectory place then (.error (.isDirectory path), files)
      else (.ok (), files.insert place bytes)

end Files

/-- Files, and what was printed beside them. -/
structure World where
  files : Files
  output : String := ""
  deriving DecidableEq, Repr

namespace World

def system (depthLimit : Nat) : System (StateM World) where
  read path := do return (← get).files.read path
  makeParents path := modifyGet fun world =>
    let (outcome, files) := world.files.makeParents depthLimit path
    (outcome, { world with files })
  write path bytes := modifyGet fun world =>
    let (outcome, files) := world.files.write path bytes
    (outcome, { world with files })
  print text := modifyGet fun world => (.ok (), { world with output := world.output ++ text })

end World

end Chip8.Command
