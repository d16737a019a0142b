import Chip8.Assembly.Error
import Chip8.Command.System
import Chip8.Machine.Fault
import Chip8.Text.ControlSequence

namespace Chip8.Command

/-! What a command leaves behind when it ends. -/

inductive Level
  | info
  | debug
  deriving DecidableEq, Repr

structure LogLine where
  level : Level
  text : String
  deriving DecidableEq, Repr

namespace LogLine

def info (text : String) : LogLine := ⟨.info, text⟩

/-- Lines for those who ask for more than the usual. -/
def details (verbose : Bool) (texts : List String) : List LogLine :=
  if verbose then texts.map (⟨.debug, ·⟩) else []

def render (line : LogLine) : String :=
  (match line.level with
    | .info => "INFO"
    | .debug => "DEBUG") ++ ":root:" ++ line.text ++ "\n"

end LogLine

/-- Why a command broke off without an ending of its own. -/
inductive Crash
  | file (reason : FileError)
  | notText
  | namelessOutput
  | failure (failure : Assembly.Failure)
  | fault (fault : Fault)
  deriving DecidableEq, Repr

inductive Ending
  | finished (exitCode : Nat)
  /-- Help was asked for, and nothing else was done. -/
  | explained
  /-- The arguments made no sense, and nothing was done. -/
  | misused
  /-- An error that is told to the user in one sentence. -/
  | rejected (message : String)
  | crashed (crash : Crash)
  deriving DecidableEq, Repr

structure Report where
  ending : Ending
  log : List LogLine := []
  deriving DecidableEq, Repr

namespace Report

def exitCode (report : Report) : Nat :=
  match report.ending with
  | .finished code => code
  | .explained => 0
  | .misused => 2
  | .rejected _ => 1
  | .crashed _ => 1

def logText (report : Report) : String :=
  String.join (report.log.map LogLine.render)

/-- The log, and after it what is to be said of the ending. A message may quote what a user wrote,
    but it commands no terminal. -/
def errorText (report : Report) (usage : String) : String :=
  match report.ending with
  | .misused => usage
  | .rejected message =>
      report.logText ++ "Error: " ++
        String.ofList (Text.withoutControlSequences message.toList) ++ "\n"
  | _ => report.logText

end Report

end Chip8.Command
