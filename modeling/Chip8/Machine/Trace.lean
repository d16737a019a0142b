import Chip8.Machine.Run

namespace Chip8.Machine

/-! The account that a machine gives of its steps, told from the state before each of them. -/

variable {ρ : Type}

def registerName (x : Register) : String :=
  "V" ++ Numeral.hex 0 x.val

def pollLines (machine : Machine ρ) (x : Register) : List String :=
  match machine.keypad.firstPressed with
  | some key => ["Key " ++ Numeral.hex 0 key.val ++ " -> " ++ registerName x]
  | none => []

/-- The line for an instruction is there whether or not its execution succeeds. -/
def fetchLines (machine : Machine ρ) (word : UInt16) : List String :=
  let instruction := Instruction.decode word.toNat
  let fetched := Numeral.hex 3 machine.pc.toNat ++ ": " ++ Numeral.hex 4 word.toNat ++ " " ++
    instruction.text
  match instruction with
  | .register .awaitKey x => [fetched, "Waiting for a key into " ++ registerName x]
  | _ => [fetched]

def stepLines (machine : Machine ρ) : List String :=
  match machine.waiting with
  | some x => machine.pollLines x
  | none =>
      match machine.fetch with
      | .ok word => machine.fetchLines word
      | .error _ => []

/-- The lines of all the steps that `executeFrom` takes with the same arguments. -/
def linesFrom [ByteSource ρ] (period : Int) (taken : Nat) : Nat → Machine ρ → List String
  | 0, _ => []
  | left + 1, machine =>
      machine.stepLines ++
        match machine.step with
        | (.error _, _) => []
        | (.ok _, after) =>
            let ticked := after.tickAfter period (taken + 1)
            if ticked.blocked then [] else linesFrom period (taken + 1) left ticked

def executeLines [ByteSource ρ] (machine : Machine ρ) (cycles period : Int) : List String :=
  linesFrom period 0 cycles.toNat machine

/-- All registers and timers on one line. -/
def dumpLine (machine : Machine ρ) : String :=
  let entry (name : String) (value : Nat) : String := name ++ ":" ++ Numeral.hex 0 value
  " ".intercalate
    ([entry "PC" machine.pc.toNat, entry "I" machine.index.toNat, entry "DT" machine.delay.toNat,
        entry "ST" machine.sound.toNat] ++
      (List.finRange 16).map fun x => entry (registerName x) (machine.register x).toNat)

end Chip8.Machine
