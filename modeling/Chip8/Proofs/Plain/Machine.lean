import Chip8.Proofs.Plain.Store
import Mathlib.Data.Int.Bitwise

namespace Chip8

/-! The machine over plain numbers and lists. No type keeps its parts in range: the masks and the
    checks of its operations are all there is. What was written before an error stays written. -/

structure Plain (ρ : Type) where
  pc : Int := 0x200
  index : Int := 0
  registers : List Int := List.replicate 16 0
  delay : Int := 0
  sound : Int := 0
  waiting : Option Int := none
  cells : List Int
  /-- Return addresses, the latest last. -/
  stack : List Int := []
  depth : Int
  rows : List (List Int) := List.replicate 32 (List.replicate 64 0)
  clip : Bool
  keys : List Bool := List.replicate 16 false
  random : ρ
  settings : Settings

namespace Plain

def Act (ρ α : Type) : Type :=
  Plain ρ → Except Refusal α × Plain ρ

variable {ρ α β : Type}

namespace Act

protected def bind (act : Act ρ α) (next : α → Act ρ β) : Act ρ β := fun machine =>
  match act machine with
  | (.ok value, after) => next value after
  | (.error refusal, after) => (.error refusal, after)

instance : Monad (Act ρ) where
  pure value := fun machine => (.ok value, machine)
  bind := Act.bind

def lift (outcome : Except Refusal α) : Act ρ α := fun machine => (outcome, machine)

def read (part : Plain ρ → α) : Act ρ α := fun machine => (.ok (part machine), machine)

def write (change : Plain ρ → Plain ρ) : Act ρ Unit := fun machine => (.ok (), change machine)

def refuse (reason : Fault) : Act ρ α := lift (.error (.fault reason))

variable {machine : Plain ρ}

@[simp] theorem pure_apply (value : α) : (pure value : Act ρ α) machine = (.ok value, machine) :=
  rfl

@[simp] theorem write_apply (change : Plain ρ → Plain ρ) :
    write change machine = (.ok (), change machine) := rfl

@[simp] theorem read_bind (part : Plain ρ → α) (next : α → Act ρ β) :
    (read part >>= next) machine = next (part machine) machine := rfl

@[simp] theorem write_bind (change : Plain ρ → Plain ρ) (next : Unit → Act ρ β) :
    (write change >>= next) machine = next () (change machine) := rfl

@[simp] theorem lift_bind (value : α) (next : α → Act ρ β) :
    (lift (.ok value) >>= next) machine = next value machine := rfl

theorem bind_of_ok {act : Act ρ α} {value : α} {after : Plain ρ} (next : α → Act ρ β)
    (done : act machine = (.ok value, after)) : (act >>= next) machine = next value after := by
  change Act.bind act next machine = _
  rw [Act.bind, done]

theorem bind_of_error {act : Act ρ α} {refusal : Refusal} {after : Plain ρ} (next : α → Act ρ β)
    (failed : act machine = (.error refusal, after)) :
    (act >>= next) machine = (.error refusal, after) := by
  change Act.bind act next machine = _
  rw [Act.bind, failed]

end Act

open Act

/-! Memory. -/

def check (address width : Int) : Act ρ Unit :=
  if address < 0 ∨ 4096 < address + width then refuse (.memoryViolation address) else pure ()

def cell (address : Int) : Act ρ Int := do
  lift (item (← read cells) address)

def setCell (address value : Int) : Act ρ Unit := do
  let cells ← lift (assignByte (← read cells) address value)
  write fun machine => { machine with cells }

def read8 (address : Int) : Act ρ Int := do
  check address 1
  cell address

def read16 (address : Int) : Act ρ Int := do
  check address 2
  let high ← cell address
  let low ← cell (address + 1)
  pure (Int.lor (high * 0x100) low)

def write8 (address value : Int) : Act ρ Unit := do
  check address 1
  setCell address (value % 0x100)

def write16 (address value : Int) : Act ρ Unit := do
  check address 2
  setCell address (value / 0x100 % 0x100)
  setCell (address + 1) (value % 0x100)

def readBlock (address size : Int) : Act ρ (List Int) := do
  check address size
  pure (slice (← read cells) address (address + size))

def writeBlock (address : Int) (block : List Int) : Act ρ Unit := do
  check address block.length
  write fun machine =>
    { machine with cells := splice machine.cells address (address + block.length) block }

def loadRom (rom : List Int) : Act ρ Unit := do
  if 3584 < rom.length then refuse (.romTooLarge rom.length)
  else
    write fun machine =>
      { machine with cells := splice machine.cells 0x200 (0x200 + rom.length) rom }

/-! The stack. -/

def push (value : Int) : Act ρ Unit := do
  let depth ← read depth
  if depth ≤ (← read stack).length then refuse (.ofDepth depth)
  else write fun machine => { machine with stack := machine.stack ++ [value % 0x10000] }

def pop : Act ρ Int := do
  match (← read stack).getLast? with
  | none => refuse .stackUnderflow
  | some address =>
      write fun machine => { machine with stack := machine.stack.dropLast }
      pure address

/-! The display. -/

def pixel (x y : Int) : Act ρ Int := do
  let row ← lift (item (← read rows) y)
  lift (item row x)

def setPixel (x y value : Int) : Act ρ Unit := do
  let row ← lift (item (← read rows) y)
  let changed ← lift (assignByte row x value)
  let rows ← lift (assign (← read rows) y changed)
  write fun machine => { machine with rows }

def fill (value : Int) : Act ρ Unit := do
  let colour ← lift (bytes [value % 2])
  write fun machine =>
    { machine with rows := machine.rows.map fun _ => (List.replicate 64 colour).flatten }

/-- One line of a sprite, column by column. The answer tells whether a pixel was turned off, here or
    before. -/
def drawColumns (clip : Bool) (x y bits : Int) (overwrote : Bool) : List Nat → Act ρ Bool
  | [] => pure overwrote
  | column :: rest =>
      if clip ∧ 64 ≤ x + column then pure overwrote
      else if bits / 2 ^ (7 - column) % 2 = 0 then drawColumns clip x y bits overwrote rest
      else do
        let place := (x + column) % 64
        if (← pixel place y) ≠ 0 then
          setPixel place y 0
          drawColumns clip x y bits true rest
        else
          setPixel place y 1
          drawColumns clip x y bits overwrote rest

def drawLines (clip : Bool) (x y : Int) (overwrote : Bool) : List Int → Act ρ Bool
  | [] => pure overwrote
  | bits :: rest =>
      if clip ∧ 32 ≤ y then pure overwrote
      else do
        let later ← drawColumns clip x (y % 32) bits overwrote (List.range 8)
        drawLines clip x (y + 1) later rest

def draw (index size x y : Int) : Act ρ Bool := do
  let sprite ← readBlock index size
  drawLines (← read clip) (x % 64) (y % 32) false sprite

/-! Registers. -/

def register (x : Int) : Act ρ Int := do
  lift (item (← read registers) x)

def setRegister (x value : Int) : Act ρ Unit := do
  let registers ← lift (assign (← read registers) x value)
  write fun machine => { machine with registers }

def setWithFlag (x value flag : Int) : Act ρ Unit := do
  setRegister x (value % 0x100)
  setRegister 15 flag

def setPc (value : Int) : Act ρ Unit :=
  write fun machine => { machine with pc := value }

def setIndex (value : Int) : Act ρ Unit :=
  write fun machine => { machine with index := value }

def skipIf (condition : Bool) : Act ρ Unit := do
  if condition then setPc (((← read pc) + 2) % 0x10000)

def keyPressed (key : Int) : Act ρ Bool := do
  lift (item (← read keys) key)

def setKey (key : Int) (pressed : Bool) : Act ρ Unit := do
  let keys ← lift (assign (← read keys) key pressed)
  write fun machine => { machine with keys }

def firstPressed : Act ρ (Option Int) := do
  let keys ← read keys
  pure ((List.range keys.length).find? (fun key => keys.getD key false) |>.map Int.ofNat)

def tickTimers : Act ρ Unit :=
  write fun machine =>
    { machine with
      delay := if machine.delay > 0 then machine.delay - 1 else machine.delay
      sound := if machine.sound > 0 then machine.sound - 1 else machine.sound }

/-! Instructions. -/

def execBare : BareOp → Act ρ Unit
  | .clearScreen => fill 0
  | .ret => do setPc (← pop)

def execAddress (addr : Int) : AddressOp → Act ρ Unit
  | .jump => setPc addr
  | .call => do
      push (← read pc)
      setPc addr
  | .loadIndex => setIndex addr
  | .jumpOffset => do setPc (((← register 0) + addr) % 0x10000)

def execImmediate [ByteSource ρ] (x byte : Int) : ImmediateOp → Act ρ Unit
  | .skipEqual => do skipIf ((← register x) == byte)
  | .skipUnequal => do skipIf ((← register x) != byte)
  | .load => setRegister x byte
  | .add => do setRegister x (((← register x) + byte) % 0x100)
  | .random => do
      let drawn := ByteSource.draw (← read random)
      write fun machine => { machine with random := drawn.2 }
      setRegister x (Int.land drawn.1.toNat byte)

def execPair (x y : Int) : PairOp → Act ρ Unit
  | .skipEqual => do skipIf ((← register x) == (← register y))
  | .skipUnequal => do skipIf ((← register x) != (← register y))
  | .load => do setRegister x (← register y)
  | .or => do setRegister x (Int.lor (← register x) (← register y))
  | .and => do setRegister x (Int.land (← register x) (← register y))
  | .xor => do setRegister x (Int.xor (← register x) (← register y))
  | .add => do
      let a ← register x
      let b ← register y
      setWithFlag x (a + b) (if a + b > 0xFF then 1 else 0)
  | .subtract => do
      let a ← register x
      let b ← register y
      setWithFlag x (a - b) (if a > b then 1 else 0)
  | .subtractFrom => do
      let a ← register x
      let b ← register y
      setWithFlag x (b - a) (if b > a then 1 else 0)
  | .shiftRight => do
      let a ← register x
      setWithFlag x (a / 2) (a % 2)
  | .shiftLeft => do
      let a ← register x
      let lost := Int.land a 0x80
      let flag := if (← read settings).normalizeShiftFlag then lost / 0x80 else lost
      setWithFlag x (a * 2) flag

def advanceIndex (x : Int) : Act ρ Unit := do
  if (← read settings).incrementIndex then setIndex (((← read index) + x + 1) % 0x10000)

def execRegister (x : Int) : RegisterOp → Act ρ Unit
  | .skipPressed => do skipIf (← keyPressed ((← register x) % 0x10))
  | .skipReleased => do skipIf !(← keyPressed ((← register x) % 0x10))
  | .readDelay => do setRegister x (← read delay)
  | .awaitKey => write fun machine => { machine with waiting := some x }
  | .setDelay => do
      let value ← register x
      write fun machine => { machine with delay := value }
  | .setSound => do
      let value ← register x
      write fun machine => { machine with sound := value }
  | .addIndex => do setIndex (((← read index) + (← register x)) % 0x10000)
  | .glyph => do setIndex ((← register x) % 0x10 * 5)
  | .digits => do
      let value ← register x
      let block ← lift (bytes [value / 100, value / 10 % 10, value % 10])
      writeBlock (← read index) block
  | .store => do
      let block ← lift (bytes (slice (← read registers) 0 (x + 1)))
      writeBlock (← read index) block
      advanceIndex x
  | .load => do
      let block ← readBlock (← read index) (x + 1)
      write fun machine => { machine with registers := splice machine.registers 0 (x + 1) block }
      advanceIndex x

def execDraw (x y n : Int) : Act ρ Unit := do
  let collision ← draw (← read index) n (← register x) (← register y)
  setRegister 15 (if collision then 1 else 0)

def exec [ByteSource ρ] : Instruction → Act ρ Unit
  | .bare op => execBare op
  | .address op addr => execAddress addr.val op
  | .immediate op x byte => execImmediate x.val byte.toNat op
  | .draw x y n => execDraw x.val y.val n.val
  | .pair op x y => execPair x.val y.val op
  | .register op x => execRegister x.val op
  | .invalid word => do refuse (.invalidInstruction word (UInt16.ofInt ((← read pc) - 2)))

/-! Steps and runs. -/

def pollKeypad : Act ρ Unit := do
  match (← firstPressed), (← read waiting) with
  | some key, some x => do
      setRegister x key
      write fun machine => { machine with waiting := none }
  | _, _ => pure ()

def step [ByteSource ρ] : Act ρ (Option Instruction) := do
  if (← read waiting).isSome then
    pollKeypad
    pure none
  else
    let address ← read pc
    let word ← read16 address
    setPc ((address + 2) % 0x10000)
    let instruction := Instruction.decode word
    exec instruction
    pure (some instruction)

def tickAfter (period : Int) (steps : Nat) : Act ρ Unit :=
  if period ≠ 0 ∧ (steps : Int) % period = 0 then tickTimers else pure ()

/-- The steps after the first `taken`, of which `left` remain. -/
def executeFrom [ByteSource ρ] (period : Int) (taken : Nat) : Nat → Act ρ Int
  | 0 => pure taken
  | left + 1 => do
      let _ ← step
      tickAfter period (taken + 1)
      if (← read waiting).isSome then pure (taken + 1 : Nat)
      else executeFrom period (taken + 1) left

def execute [ByteSource ρ] (cycles period : Int) : Act ρ Int :=
  if cycles ≤ 0 then pure cycles else executeFrom period 0 cycles.toNat

/-! The host's side. -/

def boot (rom : List UInt8) (settings : Settings) (random : ρ) : Except Refusal (Plain ρ) :=
  let cells := splice (List.replicate 4096 0) 0 Memory.font.length (ofBytes Memory.font)
  let blank := {
    cells
    depth := settings.stackDepth
    clip := settings.clipSprites
    random
    settings }
  match loadRom (ofBytes rom) blank with
  | (.ok (), loaded) => .ok loaded
  | (.error refusal, _) => .error refusal

/-- The colours of all pixels, where those are bytes. -/
def colours (on off : List Int) : List Int → Except Refusal (List Int)
  | [] => .ok []
  | cell :: rest => do
      let colour ← bytes (if cell ≠ 0 then on else off)
      .ok (colour ++ (← colours on off rest))

def serve [ByteSource ρ] : Request → Act ρ Reply
  | .step => do .executed <$> step
  | .execute cycles period => do .number <$> execute cycles period
  | .tick => do tickTimers; pure .done
  | .assignPc value => do setPc value.toNat; pure .done
  | .assignIndex value => do setIndex value.toNat; pure .done
  | .assignDelay value => do
      write fun machine => { machine with delay := value.toNat }
      pure .done
  | .assignSound value => do
      write fun machine => { machine with sound := value.toNat }
      pure .done
  | .assignRegister x value => do setRegister x.val value.toNat; pure .done
  | .changeSettings change => do
      let settings := (← read settings).update change
      write fun machine => { machine with settings }
      pure (.settings settings)
  | .setKey key pressed => do setKey key pressed; pure .done
  | .keyPressed key => do pure (.truth (← keyPressed key))
  | .firstPressed => do
      pure (.key ((← firstPressed).map fun key => Nibble.ofNat key.toNat))
  | .read8 address => do pure (.number (← read8 address))
  | .read16 address => do pure (.number (← read16 address))
  | .write8 address value => do write8 address value; pure .done
  | .write16 address value => do write16 address value; pure .done
  | .readBlock address size => do pure (.bytes ((← readBlock address size).map UInt8.ofInt))
  | .writeBlock address block => do writeBlock address (ofBytes block); pure .done
  | .push value => do push value; pure .done
  | .pop => do pure (.number (← pop))
  | .loadRom rom => do loadRom (ofBytes rom); pure .done
  | .clear => do fill 0; pure .done
  | .fill value => do fill value; pure .done
  | .pixel x y => do pure (.number (← pixel (x % 64) (y % 32)))
  | .draw index size x y => do pure (.truth (← draw index size x y))
  | .toText on off => do
      let lines := (← read rows).map fun row =>
        String.join (row.map fun cell => if cell ≠ 0 then on else off)
      pure (.text ("\n".intercalate lines))
  | .toRgba on off => do
      let values ← lift (colours on off (← read rows).flatten)
      pure (.bytes (values.map UInt8.ofInt))

end Plain

end Chip8
