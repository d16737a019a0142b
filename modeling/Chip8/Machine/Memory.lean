import Chip8.Instruction.Basic
import Chip8.Machine.Fault

namespace Chip8

/-! Byte memory. Every access names its first address and its width, and it is either in range as a
    whole or refused as a whole. -/

structure Memory where
  cells : Vector UInt8 4096
  deriving DecidableEq

def Address.ofInt (address : Int) : Address :=
  .ofNat address.toNat

namespace Memory

def cell (memory : Memory) (address : Address) : UInt8 :=
  memory.cells[address]

def set (memory : Memory) (address : Address) (value : UInt8) : Memory :=
  ⟨memory.cells.set address value⟩

/-- Consecutive cells. What would lie past the end of memory is dropped. -/
def put (memory : Memory) (start : Nat) : List UInt8 → Memory
  | [] => memory
  | value :: rest => put ⟨memory.cells.setIfInBounds start value⟩ (start + 1) rest

def InRange (address width : Int) : Prop :=
  0 ≤ address ∧ address + width ≤ 4096

instance (address width : Int) : Decidable (InRange address width) := by
  unfold InRange
  infer_instance

def access {α : Type} (address width : Int) (result : α) : Except Fault α :=
  if InRange address width then .ok result else .error (.memoryViolation address)

def read8 (memory : Memory) (address : Int) : Except Fault UInt8 :=
  access address 1 (memory.cell (.ofInt address))

/-- A word stands with its high byte first. -/
def read16 (memory : Memory) (address : Int) : Except Fault UInt16 :=
  let high := memory.cell (.ofInt address)
  let low := memory.cell (.ofInt (address + 1))
  access address 2 (UInt16.ofNat (0x100 * high.toNat + low.toNat))

def write8 (memory : Memory) (address value : Int) : Except Fault Memory :=
  access address 1 (memory.set (.ofInt address) (UInt8.ofInt value))

def write16 (memory : Memory) (address value : Int) : Except Fault Memory :=
  access address 2
    ((memory.set (.ofInt address) (UInt8.ofInt (value / 0x100))).set (.ofInt (address + 1))
      (UInt8.ofInt value))

/-- A block that would end below zero, which only a negative size can bring about, ends that far
    before the end of memory instead. -/
def blockEnd (address size : Int) : Nat :=
  let stop := address + size
  (if stop < 0 then stop + 4096 else stop).toNat

def readBlock (memory : Memory) (address size : Int) : Except Fault (List UInt8) :=
  access address size (memory.cells.toArray.extract address.toNat (blockEnd address size)).toList

def writeBlock (memory : Memory) (address : Int) (bytes : List UInt8) : Except Fault Memory :=
  access address bytes.length (memory.put address.toNat bytes)

/-- The shapes of the sixteen hexadecimal digits, five rows each. -/
def font : List UInt8 :=
  [0xF0, 0x90, 0x90, 0x90, 0xF0,
    0x20, 0x60, 0x20, 0x20, 0x70,
    0xF0, 0x10, 0xF0, 0x80, 0xF0,
    0xF0, 0x10, 0xF0, 0x10, 0xF0,
    0x90, 0x90, 0xF0, 0x10, 0x10,
    0xF0, 0x80, 0xF0, 0x10, 0xF0,
    0xF0, 0x80, 0xF0, 0x90, 0xF0,
    0xF0, 0x10, 0x20, 0x40, 0x40,
    0xF0, 0x90, 0xF0, 0x90, 0xF0,
    0xF0, 0x90, 0xF0, 0x10, 0xF0,
    0xF0, 0x90, 0xF0, 0x90, 0x90,
    0xE0, 0x90, 0xE0, 0x90, 0xE0,
    0xF0, 0x80, 0x80, 0x80, 0xF0,
    0xE0, 0x90, 0x90, 0x90, 0xE0,
    0xF0, 0x80, 0xF0, 0x80, 0xF0,
    0xF0, 0x80, 0xF0, 0x80, 0x80]

/-- Memory at power on: the font at its start and zeros from there on. -/
def initial : Memory :=
  put ⟨Vector.replicate 4096 0⟩ 0 font

/-- A program occupies memory from 0x200 on. -/
def loadRom (memory : Memory) (rom : List UInt8) : Except Fault Memory :=
  if rom.length ≤ 3584 then .ok (memory.put 0x200 rom) else .error (.romTooLarge rom.length)

end Memory

end Chip8
