import Chip8.Nibble

namespace Chip8

/-! The sixteen keys, which the host presses and releases. -/

structure Keypad where
  pressed : Vector Bool 16 := Vector.replicate 16 false
  deriving DecidableEq

inductive KeyAccess
  | reading
  | writing
  deriving DecidableEq, Repr

inductive KeyError
  | noSuchKey (access : KeyAccess)
  | tooWide
  deriving DecidableEq, Repr

def KeyError.message : KeyError → String
  | noSuchKey .reading => "list index out of range"
  | noSuchKey .writing => "list assignment index out of range"
  | tooWide => "cannot fit 'int' into an index-sized integer"

namespace Keypad

def isPressed (keypad : Keypad) (key : Nibble) : Bool :=
  keypad.pressed.get key

def set (keypad : Keypad) (key : Nibble) (pressed : Bool) : Keypad :=
  ⟨keypad.pressed.set key pressed key.lt⟩

/-- A negative number counts from the last key. Numbers beyond 64 bits are refused as such. -/
def key (access : KeyAccess) (number : Int) : Except KeyError Nibble :=
  if number < -0x8000000000000000 ∨ 0x8000000000000000 ≤ number then .error .tooWide
  else if -16 ≤ number ∧ number < 16 then .ok (.ofNat (number % 16).toNat)
  else .error (.noSuchKey access)

def keyPressed (keypad : Keypad) (number : Int) : Except KeyError Bool := do
  .ok (keypad.isPressed (← key .reading number))

def setKeyPressed (keypad : Keypad) (number : Int) (pressed : Bool) : Except KeyError Keypad := do
  .ok (keypad.set (← key .writing number) pressed)

def firstPressed (keypad : Keypad) : Option Nibble :=
  (List.finRange 16).find? keypad.isPressed

end Keypad

end Chip8
