import Chip8.Assembly.Listing
import Chip8.Command.Arguments
import Chip8.Text.Newlines

namespace Chip8.Command

/-! The command that assembles a source file into a program file. The program file is written only
    when there is a program. -/

structure AssembleOptions where
  verbose : Bool := false
  source : Path
  binary : Option Path := none
  deriving DecidableEq, Repr

namespace AssembleOptions

def spellings : Spellings where
  long
    | "--verbose" => some ("verbose", .switch)
    | "--help" => some ("help", .switch)
    | _ => none
  short
    | 'v' => some ("verbose", .switch)
    | _ => none

def ofScanned? (scanned : Arguments) : Option AssembleOptions :=
  let verbose := scanned.has "verbose"
  match scanned.positionals with
  | [source] => some { verbose, source := .ofText source }
  | [source, binary] => some { verbose, source := .ofText source, binary := some (.ofText binary) }
  | _ => none

def ofArguments (arguments : List String) : Except Ending AssembleOptions :=
  Arguments.choose spellings ofScanned? arguments

/-- Where the program goes: by default beside the source, under its name with another suffix. -/
def target? (options : AssembleOptions) : Option Path :=
  match options.binary with
  | some binary => some binary
  | none => if options.source.name = "" then none else some (options.source.withSuffix ".ch8")

end AssembleOptions

def decodeText? (bytes : List UInt8) : Option String :=
  String.fromUTF8? ⟨bytes.toArray⟩

/-- The source as the assembler sees it, with its line ends made alike. -/
def sourceText? (bytes : List UInt8) : Option String :=
  (decodeText? bytes).map fun text => String.ofList (Text.unifyNewlines text.toList)

def assembleBanner : LogLine := .info "CHIP-8 ASM"

/-- A report on the text is told to the user. Whatever else may fail breaks the command off. -/
def unassembled (log : List LogLine) : Assembly.Failure → Report
  | .report reason => { ending := .rejected reason.message, log }
  | failure => { ending := .crashed (.failure failure), log }

/-- The program of a source with the log so far, or how the command ends for want of one. -/
def translate (options : AssembleOptions) (source : Except FileError (List UInt8)) :
    Except Report (List UInt8 × List LogLine) :=
  let log := [assembleBanner, .info ("Assembling " ++ options.source.name)]
  match source with
  | .error reason => .error { ending := .crashed (.file reason), log }
  | .ok bytes =>
      match sourceText? bytes with
      | none => .error { ending := .crashed .notText, log }
      | some text =>
          let log := log ++ LogLine.details options.verbose (Assembly.listing text)
          match Assembly.assemble text with
          | .error failure => .error (unassembled log failure)
          | .ok program => .ok (program, log)

variable {m : Type → Type} [Monad m]

/-- Nothing is undone when the program cannot be written: directories that were made stay, and the
    system may have emptied the file. -/
def deliver (system : System m) (target : Path) (program : List UInt8) (log : List LogLine) :
    m Report := do
  match ← system.makeParents target with
  | .error reason => return { ending := .crashed (.file reason), log }
  | .ok () =>
      match ← system.write target program with
      | .error reason => return { ending := .crashed (.file reason), log }
      | .ok () =>
          return {
            ending := .finished 0
            log := log ++ [.info ("Wrote " ++ Numeral.decimal program.length ++ " bytes to " ++
              target.name)] }

def assembleWith (system : System m) (options : AssembleOptions) : m Report := do
  match options.target? with
  | none => return { ending := .crashed .namelessOutput, log := [assembleBanner] }
  | some target =>
      match translate options (← system.read options.source) with
      | .error report => return report
      | .ok (program, log) => deliver system target program log

def assemble (system : System m) (arguments : List String) : m Report := do
  match AssembleOptions.ofArguments arguments with
  | .error ending => return { ending }
  | .ok options => assembleWith system options

end Chip8.Command
