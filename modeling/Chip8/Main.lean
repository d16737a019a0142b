import Chip8.Command.Assemble
import Chip8.Command.Run

namespace Chip8.Command

/-! The commands at work on the files and streams of the system. -/

def usage : String :=
  "Usage: chip8 run [-v] [-n CYCLES] [--seed SEED] [--wrap-sprites] [--raw-shift-flag] " ++
    "[--increment-index] ROM\n" ++
  "       chip8 asm [-v] SOURCE [BINARY]\n"

/-- The system's number of an error, which some of its calls give with a minus sign. -/
def errorNumber (code : UInt32) : Nat :=
  code.toInt32.toInt.natAbs

/-- The number of an error and what the system says of it. -/
def told : IO.Error → Nat × String
  | .alreadyExists _ code text | .otherError code text | .resourceBusy code text
  | .resourceVanished code text | .unsupportedOperation code text | .hardwareFault code text
  | .unsatisfiedConstraints code text | .illegalOperation code text | .protocolError code text
  | .timeExpired code text | .interrupted _ code text | .noFileOrDirectory _ code text
  | .invalidArgument _ code text | .permissionDenied _ code text | .resourceExhausted _ code text
  | .inappropriateType _ code text | .noSuchThing _ code text => (errorNumber code, text)
  | .unexpectedEof => (0, "unexpected end")
  | .userError text => (0, text)

def attempt {α : Type} (about : Option Path) (act : IO α) : IO (Except FileError α) := do
  try
    return .ok (← act)
  catch problem =>
    let (number, text) := told problem
    return .error (.system number text about)

def system : System IO where
  read path := attempt (some path) do return (← IO.FS.readBinFile path.text).toList
  makeParents path := attempt (some path.parent) (IO.FS.createDirAll path.parent.text)
  write path bytes := attempt (some path) (IO.FS.writeBinFile path.text ⟨bytes.toArray⟩)
  print text := attempt none do
    IO.print text
    (← IO.getStdout).flush

def seedFromSystem : IO Int := do
  let bytes ← IO.getRandomBytes 8
  return bytes.toList.foldl (fun seed byte => 256 * seed + byte.toNat) 0

def crashText : Crash → String
  | .file reason => reason.message
  | .notText => "The source is not text in UTF-8"
  | .namelessOutput => "The source has no name to derive the output's from"
  | .failure failure => failure.message
  | .fault fault => fault.message

def conclude (report : Report) : IO UInt32 := do
  IO.eprint (report.errorText usage)
  match report.ending with
  | .explained => IO.print usage
  | .crashed crash => IO.eprintln (crashText crash)
  | _ => pure ()
  return UInt32.ofNat report.exitCode

end Chip8.Command

open Chip8.Command in
def main : List String → IO UInt32
  | "run" :: arguments => do conclude (← run system arguments (← seedFromSystem))
  | "asm" :: arguments => do conclude (← assemble system arguments)
  | _ => conclude { ending := .misused }
