import Chip8.Machine.Boot
import Chip8.Machine.Picture
import Chip8.Machine.Run

namespace Chip8

/-! What a host may ask of a running machine. Addresses, keys and coordinates are any integers. A
    refused request changes nothing, save that steps keep what was done before their fault, and
    the session goes on from the machine that the answer brings with it. -/

inductive Request
  | step
  | execute (cycles period : Int)
  | tick
  | assignPc (value : UInt16)
  | assignIndex (value : UInt16)
  | assignDelay (value : UInt8)
  | assignSound (value : UInt8)
  | assignRegister (x : Register) (value : UInt8)
  | changeSettings (change : Settings.Update)
  | setKey (key : Int) (pressed : Bool)
  | keyPressed (key : Int)
  | firstPressed
  | read8 (address : Int)
  | read16 (address : Int)
  | write8 (address value : Int)
  | write16 (address value : Int)
  | readBlock (address size : Int)
  | writeBlock (address : Int) (bytes : List UInt8)
  | push (value : Int)
  | pop
  | loadRom (rom : List UInt8)
  | clear
  | fill (value : Int)
  | pixel (x y : Int)
  | draw (index size x y : Int)
  | toText (on off : String)
  | toRgba (on off : List Int)
  deriving DecidableEq, Repr

inductive Reply
  | done
  | executed (instruction : Option Instruction)
  | number (value : Int)
  | truth (value : Bool)
  | key (key : Option Nibble)
  | bytes (bytes : List UInt8)
  | text (text : String)
  | settings (settings : Settings)
  deriving DecidableEq, Repr

inductive Refusal
  | fault (reason : Fault)
  | key (reason : KeyError)
  | colour (reason : Framebuffer.ColourError)
  deriving DecidableEq, Repr

def Refusal.message : Refusal → String
  | fault reason => reason.message
  | key reason => reason.message
  | colour reason => reason.message

namespace Machine

variable {ρ : Type}

/-- The answer to a request that changes nothing. -/
def inquire {α : Type} (machine : Machine ρ) (outcome : Except Refusal α) (reply : α → Reply) :
    Except Refusal Reply × Machine ρ :=
  (outcome.map reply, machine)

/-- The answer to a request whose only effect is that of its success. -/
def change {α : Type} (machine : Machine ρ) (outcome : Except Refusal α) (reply : α → Reply)
    (effect : α → Machine ρ) : Except Refusal Reply × Machine ρ :=
  match outcome with
  | .ok result => (.ok (reply result), effect result)
  | .error refusal => (.error refusal, machine)

def serve [ByteSource ρ] (machine : Machine ρ) : Request → Except Refusal Reply × Machine ρ
  | .step =>
      let (outcome, after) := machine.step
      ((outcome.map Reply.executed).mapError Refusal.fault, after)
  | .execute cycles period =>
      let (outcome, after) := machine.execute cycles period
      ((outcome.map Reply.number).mapError Refusal.fault, after)
  | .tick => (.ok .done, machine.tickTimers)
  | .assignPc value => (.ok .done, { machine with pc := value })
  | .assignIndex value => (.ok .done, { machine with index := value })
  | .assignDelay value => (.ok .done, { machine with delay := value })
  | .assignSound value => (.ok .done, { machine with sound := value })
  | .assignRegister x value => (.ok .done, machine.setRegister x value)
  | .changeSettings change =>
      let settings := machine.settings.update change
      (.ok (.settings settings), { machine with settings })
  | .setKey key pressed =>
      machine.change ((machine.keypad.setKeyPressed key pressed).mapError .key) (fun _ => .done)
        fun keypad => { machine with keypad }
  | .keyPressed key =>
      machine.inquire ((machine.keypad.keyPressed key).mapError .key) .truth
  | .firstPressed => (.ok (.key machine.keypad.firstPressed), machine)
  | .read8 address =>
      machine.inquire ((machine.memory.read8 address).mapError .fault) fun value =>
        .number value.toNat
  | .read16 address =>
      machine.inquire ((machine.memory.read16 address).mapError .fault) fun value =>
        .number value.toNat
  | .write8 address value =>
      machine.change ((machine.memory.write8 address value).mapError .fault) (fun _ => .done)
        fun memory => { machine with memory }
  | .write16 address value =>
      machine.change ((machine.memory.write16 address value).mapError .fault) (fun _ => .done)
        fun memory => { machine with memory }
  | .readBlock address size =>
      machine.inquire ((machine.memory.readBlock address size).mapError .fault) .bytes
  | .writeBlock address bytes =>
      machine.change ((machine.memory.writeBlock address bytes).mapError .fault) (fun _ => .done)
        fun memory => { machine with memory }
  | .push value =>
      machine.change ((machine.stack.push (UInt16.ofInt value)).mapError .fault) (fun _ => .done)
        fun stack => { machine with stack }
  | .pop =>
      machine.change (machine.stack.pop.mapError .fault) (fun popped => .number popped.1.toNat)
        fun popped => { machine with stack := popped.2 }
  | .loadRom rom =>
      machine.change ((machine.memory.loadRom rom).mapError .fault) (fun _ => .done)
        fun memory => { machine with memory }
  | .clear => (.ok .done, { machine with display := machine.display.clear })
  | .fill value => (.ok .done, { machine with display := machine.display.fill (value % 2 == 1) })
  | .pixel x y => (.ok (.number (machine.display.pixel x y).toNat), machine)
  | .draw index size x y =>
      machine.change ((machine.display.draw machine.memory index size x y).mapError .fault)
        (fun drawn => .truth drawn.1) fun drawn => { machine with display := drawn.2 }
  | .toText on off => (.ok (.text (machine.display.toText on off)), machine)
  | .toRgba on off =>
      machine.inquire ((machine.display.toRgba on off).mapError .colour) .bytes

end Machine

end Chip8
