import Chip8.Command.Path
import Chip8.Numeral

namespace Chip8.Command

/-! The calls through which a command reaches the system that it runs on. A call that fails may have
    done a part of its work. -/

inductive FileError
  /-- What the system says of a call, and of which path if it names one. -/
  | system (number : Nat) (text : String) (about : Option Path)
  | nullCharacter
  | tooDeep
  deriving DecidableEq, Repr

namespace FileError

def message : FileError → String
  | system number text about =>
      "[Errno " ++ Numeral.decimal number ++ "] " ++ text ++
        (match about with
          | some path => ": " ++ path.quoted
          | none => "")
  | nullCharacter => "embedded null byte"
  | tooDeep => "maximum recursion depth exceeded"

def notFound (path : Path) : FileError :=
  .system 2 "No such file or directory" (some path)

def occupied (path : Path) : FileError :=
  .system 17 "File exists" (some path)

def notDirectory (path : Path) : FileError :=
  .system 20 "Not a directory" (some path)

def isDirectory (path : Path) : FileError :=
  .system 21 "Is a directory" (some path)

def nameTooLong (path : Path) : FileError :=
  .system 36 "File name too long" (some path)

end FileError

structure System (m : Type → Type) where
  read : Path → m (Except FileError (List UInt8))
  /-- Makes the directories that are missing around what lies at a path. -/
  makeParents : Path → m (Except FileError Unit)
  /-- The bytes take the place of what a file held. The file is made if it is missing. -/
  write : Path → List UInt8 → m (Except FileError Unit)
  print : String → m (Except FileError Unit)

end Chip8.Command
