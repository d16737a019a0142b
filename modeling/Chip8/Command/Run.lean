import Chip8.Command.Arguments
import Chip8.Machine.Boot
import Chip8.Machine.Picture
import Chip8.Machine.Trace
import Chip8.Random.Twister

namespace Chip8.Command

/-! The command that runs a program for a number of steps and prints the display it ends with. -/

structure RunOptions where
  verbose : Bool := false
  cycles : Int := 1000
  seed : Option Int := none
  wrapSprites : Bool := false
  rawShiftFlag : Bool := false
  incrementIndex : Bool := false
  rom : Path
  deriving DecidableEq, Repr

namespace RunOptions

def spellings : Spellings where
  long
    | "--verbose" => some ("verbose", .switch)
    | "--cycles" => some ("cycles", .valued)
    | "--seed" => some ("seed", .valued)
    | "--wrap-sprites" => some ("wrap-sprites", .switch)
    | "--raw-shift-flag" => some ("raw-shift-flag", .switch)
    | "--increment-index" => some ("increment-index", .switch)
    | "--help" => some ("help", .switch)
    | _ => none
  short
    | 'v' => some ("verbose", .switch)
    | 'n' => some ("cycles", .valued)
    | _ => none

def ofScanned? (scanned : Arguments) : Option RunOptions := do
  let cycles ← scanned.integerOr? "cycles" 1000 id
  let seed ← scanned.integerOr? "seed" none some
  match scanned.positionals with
  | [rom] =>
      some {
        verbose := scanned.has "verbose"
        cycles
        seed
        wrapSprites := scanned.has "wrap-sprites"
        rawShiftFlag := scanned.has "raw-shift-flag"
        incrementIndex := scanned.has "increment-index"
        rom := .ofText rom }
  | _ => none

def ofArguments (arguments : List String) : Except Ending RunOptions :=
  Arguments.choose spellings ofScanned? arguments

def settings (options : RunOptions) : Settings :=
  ({} : Settings).update {
    clipSprites := some !options.wrapSprites
    normalizeShiftFlag := some !options.rawShiftFlag
    incrementIndex := some options.incrementIndex }

end RunOptions

/-- Ten steps are about what fits between two ticks of a timer that ticks sixty times a second. -/
def tickPeriod : Int := 10

def banner : LogLine := .info "CHIP-8"

/-- An invalid instruction has an exit code of its own. -/
def haltedBy (fault : Fault) (log : List LogLine) : Report :=
  match fault with
  | .invalidInstruction _ _ =>
      { ending := .finished 2, log := log ++ [.info ("Execution halted: " ++ fault.message)] }
  | .digitLimit => { ending := .crashed (.fault fault), log }
  | _ =>
      { ending := .finished 100
        log := log ++ [.info ("Execution halted on machine error: " ++ fault.message)] }

/-- What the system says of a call ends the command with a code of its own, even if it was printing
    that failed and not reading. -/
def stoppedBy (options : RunOptions) (reason : FileError) (log : List LogLine) : Report :=
  match reason with
  | .system _ _ _ =>
      { ending := .finished 100
        log := log ++
          [.info ("Unable to read " ++ options.rom.text ++ ": " ++ reason.message)] }
  | _ => { ending := .crashed (.file reason), log }

/-- The text to be printed with the log so far, or how the command ends before anything is. -/
def play {ρ : Type} [ByteSource ρ] (options : RunOptions) (machine : Machine ρ)
    (log : List LogLine) : Except Report (String × List LogLine) :=
  let log := log ++
    LogLine.details options.verbose (machine.executeLines options.cycles tickPeriod)
  match machine.execute options.cycles tickPeriod with
  | (.error fault, _) => .error (haltedBy fault log)
  | (.ok executed, final) =>
      let waits := if final.blocked then
          [LogLine.info ("Waiting for a key after " ++ Numeral.decimal executed ++ " steps")]
        else []
      .ok (final.display.toText "#" "." ++ "\n",
        log ++ waits ++ [.info ("Executed " ++ Numeral.decimal executed ++ " steps")] ++
          LogLine.details options.verbose [final.dumpLine])

def playRom {ρ : Type} [ByteSource ρ] (options : RunOptions) (random : ρ) (rom : List UInt8) :
    Except Report (String × List LogLine) :=
  match Machine.boot rom options.settings random with
  | .error fault => .error (haltedBy fault [banner])
  | .ok machine =>
      play options machine ([banner] ++ LogLine.details options.verbose
        ["Loading " ++ Numeral.decimal rom.length ++ " ROM bytes at 0x200"])

variable {m : Type → Type} [Monad m]

def runWith {ρ : Type} [ByteSource ρ] (system : System m) (options : RunOptions) (random : ρ) :
    m Report := do
  match ← system.read options.rom with
  | .error reason => return stoppedBy options reason [banner]
  | .ok rom =>
      match playRom options random rom with
      | .error report => return report
      | .ok (picture, log) =>
          match ← system.print picture with
          | .error reason => return stoppedBy options reason log
          | .ok () => return { ending := .finished 0, log }

/-- Without a seed of its own a run is seeded with `entropy`. -/
def run (system : System m) (arguments : List String) (entropy : Int) : m Report := do
  match RunOptions.ofArguments arguments with
  | .error ending => return { ending }
  | .ok options => runWith system options (Twister.ofSeed (options.seed.getD entropy))

end Chip8.Command
