import Chip8.Command.Report
import Chip8.Numeral
import Chip8.Text.DecimalDigit
import Chip8.Text.Space

namespace Chip8.Command

/-! Command lines. Options and positional arguments mix freely; of an option that is given more
    than once the last value counts. -/

inductive OptionKind
  | switch
  | valued
  deriving DecidableEq, Repr

/-- How a command's options are spelled, and the name that all spellings of one option share. -/
structure Spellings where
  /-- The whole argument, up to an equals sign. -/
  long : String → Option (String × OptionKind)
  /-- A letter after a dash. -/
  short : Char → Option (String × OptionKind)

structure Arguments where
  switches : List String := []
  values : List (String × String) := []
  positionals : List String := []
  deriving DecidableEq, Repr

namespace Arguments

def isOption (argument : String) : Bool :=
  argument.toList.head? == some '-' && argument.length > 1

/-- What one argument asks for. An option with a value comes last in it, and has the value with it
    unless that is the argument after it. -/
structure Word where
  switches : List String := []
  valued : Option (String × Option String) := none
  deriving DecidableEq, Repr

/-- The part before the first equals sign, and what stands after it. -/
def attached (characters : List Char) : List Char × Option (List Char) :=
  let name := characters.takeWhile (· != '=')
  match characters.drop name.length with
  | [] => (name, none)
  | _ :: value => (name, some value)

/-- Letters after one dash. A letter that takes a value takes the letters after it. -/
def letters? (short : Char → Option (String × OptionKind)) : List Char → Option Word
  | [] => some {}
  | letter :: rest =>
      match short letter with
      | none => none
      | some (name, .switch) => do
          let word ← letters? short rest
          some { word with switches := name :: word.switches }
      | some (name, .valued) =>
          some { valued := some (name, if rest.isEmpty then none else some (String.ofList rest)) }

/-- What is no option as a whole may be letters, but not after two dashes. -/
def word? (spellings : Spellings) (argument : String) : Option Word :=
  let (name, value) := attached argument.toList
  match spellings.long (String.ofList name), value with
  | some (name, .switch), none => some { switches := [name] }
  | some (_, .switch), some _ => none
  | some (name, .valued), value => some { valued := some (name, value.map String.ofList) }
  | none, _ =>
      if argument.toList.take 2 = ['-', '-'] then none
      else letters? spellings.short (argument.toList.drop 1)

def add (arguments : Arguments) (switches : List String) (values : List (String × String)) :
    Arguments :=
  { arguments with
    switches := switches ++ arguments.switches
    values := values ++ arguments.values }

/-- The argument after an option with a value is its value, whatever it looks like. -/
def scan (spellings : Spellings) : List String → Option Arguments
  | [] => some {}
  | argument :: rest =>
      if argument = "--" then some { positionals := rest }
      else if isOption argument then do
        let word ← word? spellings argument
        match word.valued with
        | none => some ((← scan spellings rest).add word.switches [])
        | some (name, some value) =>
            some ((← scan spellings rest).add word.switches [(name, value)])
        | some (name, none) =>
            match rest with
            | [] => none
            | value :: rest => some ((← scan spellings rest).add word.switches [(name, value)])
      else do
        let others ← scan spellings rest
        some { others with positionals := argument :: others.positionals }

def has (arguments : Arguments) (name : String) : Bool :=
  arguments.switches.contains name

def value? (arguments : Arguments) (name : String) : Option String :=
  arguments.values.reverse.lookup name

/-- The digits of a number, of whatever script. Single underscores may stand between digits. -/
def digits? : List Char → Option (List Nat)
  | [] => none
  | [last] => (Text.decimalDigit? last).map ([·])
  | first :: '_' :: rest => do
      let digit ← Text.decimalDigit? first
      some (digit :: (← digits? rest))
  | first :: rest => do
      let digit ← Text.decimalDigit? first
      some (digit :: (← digits? rest))

/-- The separators among the control characters do not count as blanks beside a number. -/
def isPadding (character : Char) : Bool :=
  Text.isSpace character && !(0x1C ≤ character.toNat && character.toNat ≤ 0x1F)

/-- A whole number with an optional sign and any blanks around it. -/
def integer? (text : String) : Option Int :=
  let magnitude (characters : List Char) : Option Int :=
    ((digits? characters).filter fun digits => Numeral.Readable 10 digits).map fun digits =>
      (Numeral.value 10 digits : Int)
  match Text.trimmed isPadding text.toList with
  | '-' :: rest => (magnitude rest).map (- ·)
  | '+' :: rest => magnitude rest
  | characters => magnitude characters

/-- The number given for an option, or what counts where the option is absent. A value that is no
    number makes the whole command line senseless. -/
def integerOr? {α : Type} (arguments : Arguments) (name : String) (absent : α)
    (present : Int → α) : Option α :=
  match arguments.value? name with
  | none => some absent
  | some text => (integer? text).map present

/-- What a command is to do, if anything. Help comes before whatever else is asked for, but not
    before arguments that make no sense one by one. -/
def choose {α : Type} (spellings : Spellings) (options? : Arguments → Option α)
    (arguments : List String) : Except Ending α :=
  match scan spellings arguments with
  | none => .error .misused
  | some scanned =>
      if scanned.has "help" then .error .explained
      else
        match options? scanned with
        | none => .error .misused
        | some options => .ok options

end Arguments

end Chip8.Command
