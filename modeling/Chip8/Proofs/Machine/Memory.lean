import Chip8.Machine.Memory

namespace Chip8

/-! Memory through its cells: what consecutive writes leave in every cell, and what reads of one and
    of two cells give. -/

theorem toNat_ofInt (value : Int) : ((UInt8.ofInt value).toNat : Int) = value % 0x100 := by
  simp only [UInt8.ofInt, UInt8.toNat_ofNat']
  omega

theorem ofInt_toNat (byte : UInt8) : UInt8.ofInt byte.toNat = byte := by
  have bound := byte.toNat_lt
  have same := toNat_ofInt byte.toNat
  exact UInt8.toNat_inj.mp (by omega)

namespace Memory

variable {memory : Memory} {start index : Nat} {bytes : List UInt8} {address : Address}

theorem cell_put_frame (outside : address.val < start ∨ start + bytes.length ≤ address.val) :
    (memory.put start bytes).cell address = memory.cell address := by
  induction bytes generalizing memory start with
  | nil => rfl
  | cons byte rest ih =>
      simp only [List.length_cons] at outside
      rw [put, ih (by omega)]
      simp only [cell, Fin.getElem_fin]
      exact Vector.getElem_setIfInBounds_ne _ (by omega)

theorem cell_put_lane (bound : index < bytes.length) (place : address.val = start + index) :
    (memory.put start bytes).cell address = bytes[index] := by
  induction bytes generalizing memory start index with
  | nil => simp at bound
  | cons byte rest ih =>
      cases index with
      | zero =>
          rw [put, cell_put_frame (by omega)]
          simp only [cell, Fin.getElem_fin, place, Nat.add_zero, List.getElem_cons_zero]
          exact Vector.getElem_setIfInBounds_self _
      | succ index =>
          simp only [List.length_cons] at bound
          have inRest : index < rest.length := by omega
          rw [put, ih inRest (by omega), List.getElem_cons_succ]

theorem cell_initial (address : Address) : initial.cell address = font.getD address.val 0 := by
  rw [List.getD_eq_getElem?_getD]
  by_cases inside : address.val < font.length
  · rw [initial, cell_put_lane inside (by omega), List.getElem?_eq_getElem inside, Option.getD_some]
  · rw [initial, cell_put_frame (by omega), List.getElem?_eq_none (by omega), Option.getD_none]
    simp only [cell, Fin.getElem_fin, Vector.getElem_replicate]

/-- The bytes stand in memory one after the other from an address on. -/
def Holds (memory : Memory) (start : Nat) (bytes : List UInt8) : Prop :=
  start + bytes.length ≤ 4096 ∧
    ∀ (index : Nat) (bound : index < bytes.length),
      memory.cell (.ofNat (start + index)) = bytes[index]

theorem holds_put (room : start + bytes.length ≤ 4096) :
    (memory.put start bytes).Holds start bytes := by
  refine ⟨room, fun index bound => cell_put_lane bound ?_⟩
  exact Nat.mod_eq_of_lt (by omega)

theorem Holds.append_left {more : List UInt8} (held : memory.Holds start (bytes ++ more)) :
    memory.Holds start bytes := by
  obtain ⟨room, cells⟩ := held
  rw [List.length_append] at room
  refine ⟨by omega, fun index bound => ?_⟩
  rw [cells index (by rw [List.length_append]; omega), List.getElem_append_left bound]

theorem Holds.append_right {more : List UInt8} (held : memory.Holds start (bytes ++ more)) :
    memory.Holds (start + bytes.length) more := by
  obtain ⟨room, cells⟩ := held
  rw [List.length_append] at room
  refine ⟨by omega, fun index bound => ?_⟩
  rw [Nat.add_assoc, cells (bytes.length + index) (by rw [List.length_append]; omega),
    List.getElem_append_right (Nat.le_add_right _ _)]
  simp only [Nat.add_sub_cancel_left]

theorem Holds.append {more : List UInt8} (front : memory.Holds start bytes)
    (back : memory.Holds (start + bytes.length) more) : memory.Holds start (bytes ++ more) := by
  obtain ⟨_, frontCells⟩ := front
  obtain ⟨room, backCells⟩ := back
  refine ⟨by rw [List.length_append]; omega, fun index bound => ?_⟩
  rw [List.length_append] at bound
  by_cases inFront : index < bytes.length
  · rw [frontCells index inFront, List.getElem_append_left inFront]
  · have here := backCells (index - bytes.length) (by omega)
    rw [show start + bytes.length + (index - bytes.length) = start + index by omega] at here
    rw [here, List.getElem_append_right (by omega)]

/-- Bytes stay where no cell of theirs changes. -/
theorem Holds.congr {other : Memory} (held : memory.Holds start bytes)
    (same : ∀ address : Address, start ≤ address.val → address.val < start + bytes.length →
      other.cell address = memory.cell address) : other.Holds start bytes := by
  obtain ⟨room, cells⟩ := held
  refine ⟨room, fun index bound => ?_⟩
  have place : (Address.ofNat (start + index)).val = start + index := Nat.mod_eq_of_lt (by omega)
  rw [same _ (by omega) (by omega), cells index bound]

theorem access_congr {α : Type} {address size : Int} {first second : α}
    (same : InRange address size → first = second) :
    access address size first = access address size second := by
  rw [access, access]
  by_cases range : InRange address size
  · rw [same range]
  · rw [if_neg range, if_neg range]

theorem read8_cell (memory : Memory) (address : Address) :
    memory.read8 address.val = .ok (memory.cell address) := by
  have inRange : InRange address.val 1 := ⟨by omega, by omega⟩
  have here : Address.ofInt address.val = address := Fin.ext (Nat.mod_eq_of_lt address.isLt)
  rw [read8, access, if_pos inRange, here]

theorem read8_of_holds (held : memory.Holds start bytes) (bound : index < bytes.length) :
    memory.read8 (start + index : Nat) = .ok bytes[index] := by
  obtain ⟨room, cells⟩ := held
  have here := memory.read8_cell (.ofNat (start + index))
  rw [cells index bound] at here
  have inside : (Address.ofNat (start + index)).val = start + index := Nat.mod_eq_of_lt (by omega)
  rw [inside] at here
  exact here

theorem read16_of_holds {high low : UInt8} (held : memory.Holds start [high, low]) :
    memory.read16 start = .ok (UInt16.ofNat (0x100 * high.toNat + low.toNat)) := by
  obtain ⟨room, cells⟩ := held
  have inRange : InRange start 2 := by
    simp only [List.length_cons, List.length_nil] at room
    exact ⟨by omega, by omega⟩
  have first := cells 0 (by simp)
  have second := cells 1 (by simp)
  simp only [Nat.add_zero, List.getElem_cons_zero, List.getElem_cons_succ] at first second
  have here : Address.ofInt start = Address.ofNat start := rfl
  have next : Address.ofInt ((start : Int) + 1) = Address.ofNat (start + 1) := rfl
  simp only [read16, access, if_pos inRange, here, next, first, second]

/-- The number of bytes in a block that is not refused. One that would end below zero goes on as if
    its end were that far before the end of memory. -/
def blockLength (address size : Int) : Nat :=
  (if address + size < 0 then size + 4096 else size).toNat

/-- A block is read cell by cell. -/
theorem readBlock_eq_ok {first size : Int} (range : InRange first size) :
    memory.readBlock first size =
      .ok ((List.range (blockLength first size)).map fun k : Nat =>
        memory.cell (.ofInt (first + k))) := by
  have inside : InRange first size := range
  simp only [InRange] at range
  have stop : blockEnd first size - first.toNat = blockLength first size ∧
      blockEnd first size ≤ 4096 := by
    simp only [blockEnd, blockLength]
    split <;> omega
  rw [readBlock, access, if_pos inside]
  refine congrArg _ (List.ext_getElem ?_ fun k _ bound => ?_)
  · simp only [Array.length_toList, Array.size_extract, Vector.size_toArray, List.length_map,
      List.length_range]
    omega
  · simp only [List.length_map, List.length_range] at bound
    have place : (first + k).toNat % 4096 = first.toNat + k := by omega
    simp [cell, Address.ofInt, Address.ofNat, place]

theorem blockLength_natCast {first : Int} {size : Nat} (range : InRange first size) :
    blockLength first size = size := by
  have upward : ¬ first + size < 0 := by
    simp only [InRange] at range
    omega
  rw [blockLength, if_neg upward, Int.toNat_natCast]

theorem readBlock_eq_cells {first : Int} {size : Nat} (range : InRange first size) :
    memory.readBlock first size =
      .ok ((List.range size).map fun k : Nat => memory.cell (.ofInt (first + k))) := by
  rw [readBlock_eq_ok range, blockLength_natCast range]

theorem readBlock_of_holds (held : memory.Holds start bytes) :
    memory.readBlock start bytes.length = .ok bytes := by
  obtain ⟨room, cells⟩ := held
  rw [readBlock_eq_cells ⟨by omega, by omega⟩]
  refine congrArg Except.ok (List.ext_getElem (by simp) fun index _ bound => ?_)
  rw [List.getElem_map, List.getElem_range]
  exact cells index bound

theorem writeBlock_eq_ok (room : start + bytes.length ≤ 4096) :
    memory.writeBlock start bytes = .ok (memory.put start bytes) := by
  rw [writeBlock, access, if_pos ⟨by omega, by omega⟩, Int.toNat_natCast]

end Memory

end Chip8
