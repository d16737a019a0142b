import Chip8.Machine.Host
import Mathlib.Data.List.Basic

namespace Chip8.Plain

/-! Lists of any length with entries of any size. An index that a list does not have and a number
    that is not a byte are refused, and nothing else is. -/

/-- Where an index falls. A negative one counts from the end of the list. -/
def position (access : KeyAccess) (length : Nat) (index : Int) : Except Refusal (Fin length) :=
  if index < -0x8000000000000000 ∨ 0x8000000000000000 ≤ index then .error (.key .tooWide)
  else if inside : -(length : Int) ≤ index ∧ index < length then
    .ok ⟨(index % length).toNat, by
      have positive : 0 < (length : Int) := by omega
      have upper := Int.emod_lt_of_pos index positive
      have lower := Int.emod_nonneg index (by omega : (length : Int) ≠ 0)
      omega⟩
  else .error (.key (.noSuchKey access))

def item {α : Type} (values : List α) (index : Int) : Except Refusal α :=
  (position .reading values.length index).map values.get

def assign {α : Type} (values : List α) (index : Int) (value : α) : Except Refusal (List α) :=
  (position .writing values.length index).map fun place => values.set place value

/-- An end of a slice. It may lie beyond the list, whose own end counts then. -/
def sliceEnd (length : Nat) (index : Int) : Nat :=
  (if index < 0 then index + length else index).toNat

def slice {α : Type} (values : List α) (start stop : Int) : List α :=
  (values.take (sliceEnd values.length stop)).drop (sliceEnd values.length start)

/-- A slice replaced by other values. With more or fewer of them the length changes. -/
def splice {α : Type} (values : List α) (start stop : Int) (others : List α) : List α :=
  let first := sliceEnd values.length start
  values.take first ++ others ++ values.drop (max first (sliceEnd values.length stop))

/-- The numbers as bytes, if they are. -/
def bytes : List Int → Except Refusal (List Int)
  | [] => .ok []
  | value :: rest => do
      if 0 ≤ value ∧ value < 256 then .ok (value :: (← bytes rest))
      else .error (.colour (.component value))

/-- An entry of a list of bytes. -/
def assignByte (values : List Int) (index value : Int) : Except Refusal (List Int) := do
  let _ ← bytes [value]
  assign values index value

theorem position_congr {length other : Nat} (same : other = length) (access : KeyAccess)
    (index : Int) :
    position access length index = (position access other index).map (Fin.cast same) := by
  subst same
  cases position access other index <;> rfl

section Inside

variable {α : Type} {values : List α} {index : Nat}

theorem position_natCast (access : KeyAccess) (inside : index < values.length)
    (short : values.length ≤ 0x1000) :
    position access values.length index = .ok ⟨index, inside⟩ := by
  have narrow : ¬ ((index : Int) < -0x8000000000000000 ∨ 0x8000000000000000 ≤ (index : Int)) := by
    omega
  have within : -(values.length : Int) ≤ index ∧ (index : Int) < values.length := by omega
  have same : ((index : Int) % values.length).toNat = index := by
    rw [Int.emod_eq_of_lt (by omega) (by omega), Int.toNat_natCast]
  rw [position, if_neg narrow, dif_pos within]
  simp only [same]

theorem item_natCast (inside : index < values.length) (short : values.length ≤ 0x1000) :
    item values index = .ok values[index] := by
  rw [item, position_natCast _ inside short]
  rfl

theorem assign_natCast (value : α) (inside : index < values.length)
    (short : values.length ≤ 0x1000) :
    assign values index value = .ok (values.set index value) := by
  rw [assign, position_natCast _ inside short]
  rfl

theorem sliceEnd_natCast (length index : Nat) : sliceEnd length index = index := by
  have positive : ¬ (index : Int) < 0 := by omega
  rw [sliceEnd, if_neg positive, Int.toNat_natCast]

end Inside

/-- Bytes among all numbers. -/
def ofBytes (bytes : List UInt8) : List Int :=
  bytes.map fun byte => byte.toNat

theorem bytes_ofBytes (values : List UInt8) : bytes (ofBytes values) = .ok (ofBytes values) := by
  induction values with
  | nil => rfl
  | cons value rest ih =>
      have bound := value.toNat_lt
      have range : 0 ≤ (value.toNat : Int) ∧ (value.toNat : Int) < 256 := by omega
      rw [ofBytes, List.map_cons, ← ofBytes, bytes, if_pos range, ih]
      rfl

end Chip8.Plain
