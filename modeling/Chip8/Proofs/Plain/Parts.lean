import Chip8.Proofs.Plain.View

namespace Chip8.Plain

/-! What the machine's parts do, plain and in range: memory, stack, registers and keypad. -/

open Act

variable {ρ α : Type} {machine : Machine ρ}

/-- The outcome of an operation on one of the machine's parts, with the whole seen as plain. -/
def mirror {β : Type} (machine : Machine ρ) (outcome : Except Fault α) (reply : α → β)
    (effect : α → Machine ρ) : Except Refusal β × Plain ρ :=
  match outcome with
  | .ok result => (.ok (reply result), (effect result).plain)
  | .error fault => (.error (.fault fault), machine.plain)

/-! Memory. -/

@[simp] theorem length_cells (machine : Machine ρ) : machine.plain.cells.length = 4096 := by
  simp [Machine.plain, ofBytes]

/-- Behind the check of an access, everything happens in range. -/
theorem check_bind {β : Type} {address width : Int} {next : Unit → Act ρ β} {result : α}
    {reply : α → β} {effect : α → Machine ρ}
    (inside : Memory.InRange address width →
      next () machine.plain = (.ok (reply result), (effect result).plain)) :
    (check address width >>= next) machine.plain =
      mirror machine (Memory.access address width result) reply effect := by
  rw [Memory.access]
  by_cases range : Memory.InRange address width
  · have passed : ¬ (address < 0 ∨ 4096 < address + width) := by
      simp only [Memory.InRange] at range
      omega
    rw [if_pos range, bind_of_ok next (by rw [check, if_neg passed]; rfl), inside range]
    rfl
  · have stopped : address < 0 ∨ 4096 < address + width := by
      simp only [Memory.InRange] at range
      omega
    rw [if_neg range, bind_of_error next (by rw [check, if_pos stopped]; rfl)]
    rfl

theorem getElem_cells {place : Nat} (inside : place < machine.plain.cells.length) :
    machine.plain.cells[place] = (machine.memory.cell (.ofInt place)).toNat := by
  rw [length_cells] at inside
  have wrapped : place % 4096 = place := Nat.mod_eq_of_lt inside
  simp [Machine.plain, ofBytes, Memory.cell, Address.ofInt, Address.ofNat, wrapped]

theorem cell_plain {address : Int} (inside : 0 ≤ address ∧ address < 4096) :
    cell address machine.plain =
      (.ok ((machine.memory.cell (.ofInt address)).toNat : Int), machine.plain) := by
  obtain ⟨place, rfl⟩ := Int.eq_ofNat_of_zero_le inside.1
  have bound : place < machine.plain.cells.length := by
    rw [length_cells]
    omega
  rw [cell, read_bind, item_natCast bound (by simp), getElem_cells]
  rfl

theorem assignByte_natCast {values : List Int} {index : Nat} (byte : UInt8)
    (inside : index < values.length) (short : values.length ≤ 0x1000) :
    assignByte values index byte.toNat = .ok (values.set index byte.toNat) := by
  have checked : bytes [(byte.toNat : Int)] = .ok [(byte.toNat : Int)] := bytes_ofBytes [byte]
  rw [assignByte, checked, assign_natCast _ inside short]
  rfl

theorem setCell_plain {address : Int} (byte : UInt8) (inside : 0 ≤ address ∧ address < 4096) :
    setCell address byte.toNat machine.plain =
      (.ok (), { machine with memory := machine.memory.set (.ofInt address) byte }.plain) := by
  obtain ⟨place, rfl⟩ := Int.eq_ofNat_of_zero_le inside.1
  have bound : place < machine.plain.cells.length := by
    rw [length_cells]
    omega
  have wrapped : place % 4096 = place := Nat.mod_eq_of_lt (by omega)
  have cells : machine.plain.cells.set place byte.toNat =
      ofBytes (machine.memory.set (.ofInt place) byte).cells.toList := by
    simp [Machine.plain, ofBytes, Memory.set, Address.ofInt, Address.ofNat, wrapped,
      Vector.toList_set]
  rw [setCell, read_bind, assignByte_natCast byte bound (by simp), lift_bind, write_apply, cells]
  rfl

theorem read8_plain (address : Int) :
    read8 address machine.plain =
      mirror machine (machine.memory.read8 address) (fun byte => (byte.toNat : Int))
        fun _ => machine :=
  check_bind fun range => cell_plain (by
    simp only [Memory.InRange] at range
    omega)

/-- Two bytes as a word. -/
theorem lor_bytes (high low : UInt8) :
    Int.lor (high.toNat * 0x100) low.toNat =
      (UInt16.ofNat (0x100 * high.toNat + low.toNat)).toNat := by
  have highLt := high.toNat_lt
  have lowLt : low.toNat < 2 ^ 8 := low.toNat_lt
  have joined := Nat.two_pow_add_eq_or_of_lt lowLt high.toNat
  have natural : (high.toNat * 0x100 : Int) = (2 ^ 8 * high.toNat : Nat) := by
    rw [Nat.mul_comm]
    rfl
  rw [natural]
  change ((2 ^ 8 * high.toNat ||| low.toNat : Nat) : Int) = _
  rw [← joined, UInt16.toNat_ofNat']
  omega

theorem read16_plain (address : Int) :
    read16 address machine.plain =
      mirror machine (machine.memory.read16 address) (fun word => (word.toNat : Int))
        fun _ => machine := by
  apply check_bind
  intro range
  simp only [Memory.InRange] at range
  rw [bind_of_ok _ (cell_plain (by omega)), bind_of_ok _ (cell_plain (by omega)), pure_apply,
    lor_bytes]

theorem write8_plain (address value : Int) :
    write8 address value machine.plain =
      mirror machine (machine.memory.write8 address value) (fun _ => ())
        fun memory => { machine with memory } := by
  apply check_bind
  intro range
  simp only [Memory.InRange] at range
  rw [← toNat_ofInt]
  exact setCell_plain _ (by omega)

theorem write16_plain (address value : Int) :
    write16 address value machine.plain =
      mirror machine (machine.memory.write16 address value) (fun _ => ())
        fun memory => { machine with memory } := by
  apply check_bind
  intro range
  simp only [Memory.InRange] at range
  rw [← toNat_ofInt, ← toNat_ofInt, bind_of_ok _ (setCell_plain _ (by omega))]
  exact setCell_plain _ (by omega)

theorem readBlock_plain (address size : Int) :
    readBlock address size machine.plain =
      mirror machine (machine.memory.readBlock address size) ofBytes fun _ => machine := by
  apply check_bind
  intro range
  simp only [Memory.InRange] at range
  have first : sliceEnd machine.plain.cells.length address = address.toNat := by
    have positive : ¬ address < 0 := by omega
    rw [sliceEnd, if_neg positive]
  have last : sliceEnd machine.plain.cells.length (address + size) =
      Memory.blockEnd address size := by
    rw [length_cells]
    rfl
  rw [read_bind, pure_apply, slice, first, last]
  simp [Machine.plain, ofBytes, List.drop_take]
  rfl

/-- Consecutive cells as a part of the list of all cells. -/
theorem toList_put (memory : Memory) (start : Nat) (block : List UInt8)
    (inside : start + block.length ≤ 4096) :
    (memory.put start block).cells.toList =
      memory.cells.toList.take start ++ block ++
        memory.cells.toList.drop (start + block.length) := by
  induction block generalizing memory start with
  | nil => simp [Memory.put]
  | cons byte rest ih =>
      rw [List.length_cons] at inside
      have size : start < memory.cells.toList.length := by
        rw [Vector.length_toList]
        omega
      have written : (memory.cells.setIfInBounds start byte).toList =
          memory.cells.toList.set start byte := by
        simp
      have front : (memory.cells.toList.set start byte).take (start + 1) =
          memory.cells.toList.take start ++ [byte] := by
        rw [← List.take_append_getElem (by simpa using size),
          List.take_set_of_le (Nat.le_refl start), List.getElem_set_self]
      rw [Memory.put, ih _ _ (by omega), written, List.drop_set_of_lt (by omega), front,
        List.length_cons, Nat.add_right_comm]
      simp [Nat.add_assoc]

theorem splice_cells (memory : Memory) (start : Nat) (block : List UInt8)
    (inside : start + block.length ≤ 4096) :
    splice (ofBytes memory.cells.toList) start (start + block.length : Nat) (ofBytes block) =
      ofBytes (memory.put start block).cells.toList := by
  rw [splice, sliceEnd_natCast, sliceEnd_natCast, Nat.max_eq_right (Nat.le_add_right _ _),
    toList_put memory start block inside]
  simp [ofBytes]

theorem writeBlock_plain (address : Int) (block : List UInt8) :
    writeBlock address (ofBytes block) machine.plain =
      mirror machine (machine.memory.writeBlock address block) (fun _ => ())
        fun memory => { machine with memory } := by
  have size : (ofBytes block).length = block.length := List.length_map _
  rw [writeBlock, Memory.writeBlock, size]
  apply check_bind
  intro range
  simp only [Memory.InRange] at range
  obtain ⟨start, rfl⟩ := Int.eq_ofNat_of_zero_le range.1
  have stored := splice_cells machine.memory start block (by omega)
  rw [write_apply, Int.toNat_natCast, ← Int.natCast_add]
  simp only [Machine.plain, stored]

theorem loadRom_plain (rom : List UInt8) :
    loadRom (ofBytes rom) machine.plain =
      mirror machine (machine.memory.loadRom rom) (fun _ => ())
        fun memory => { machine with memory } := by
  have size : (ofBytes rom).length = rom.length := List.length_map _
  rw [loadRom, Memory.loadRom, size]
  by_cases fits : rom.length ≤ 3584
  · have stored := splice_cells machine.memory 0x200 rom (by omega)
    rw [if_pos fits, if_neg (by omega), write_apply]
    rw [Int.natCast_add] at stored
    simp only [Machine.plain, mirror]
    rw [← stored]
    rfl
  · rw [if_neg fits, if_pos (by omega)]
    rfl

/-! The stack, whose latest entry the plain machine has at the end. -/

theorem length_stack (machine : Machine ρ) : machine.plain.stack.length = machine.stack.size := by
  simp [Machine.plain, ofAddresses, CallStack.size]

theorem push_plain (value : Int) :
    push value machine.plain =
      mirror machine (machine.stack.push (UInt16.ofInt value)) (fun _ => ())
        fun stack => { machine with stack } := by
  have cut : ((UInt16.ofInt value).toNat : Int) = value % 0x10000 := by
    simp only [UInt16.ofInt, UInt16.toNat_ofNat']
    omega
  rw [push, read_bind, read_bind, length_stack, CallStack.push]
  by_cases full : machine.stack.depth ≤ machine.stack.size
  · rw [if_pos full, if_pos (show machine.plain.depth ≤ machine.stack.size from full)]
    rfl
  · rw [if_neg full, if_neg (show ¬ machine.plain.depth ≤ machine.stack.size from full),
      write_apply, ← cut]
    simp [Machine.plain, mirror, ofAddresses]

theorem pop_plain :
    pop machine.plain =
      mirror machine machine.stack.pop (fun popped => (popped.1.toNat : Int))
        fun popped => { machine with stack := popped.2 } := by
  rw [pop, read_bind, CallStack.pop]
  cases entries : machine.stack.entries with
  | nil =>
      have none : machine.plain.stack.getLast? = none := by
        simp [Machine.plain, ofAddresses, entries]
      rw [none]
      rfl
  | cons address rest =>
      have latest : machine.plain.stack = ofAddresses rest.reverse ++ [(address.toNat : Int)] := by
        simp [Machine.plain, ofAddresses, entries]
      simp only [latest, List.getLast?_concat, write_bind, pure_apply, List.dropLast_concat]
      rfl

/-! Registers. -/

theorem registers_plain (machine : Machine ρ) (x : Register) :
    x.val < machine.plain.registers.length ∧ machine.plain.registers.length ≤ 0x1000 := by
  have bound := x.isLt
  simp [Machine.plain, ofBytes, bound]

theorem register_plain (x : Register) :
    register x.val machine.plain = (.ok ((machine.register x).toNat : Int), machine.plain) := by
  obtain ⟨inside, short⟩ := registers_plain machine x
  rw [register, read_bind, item_natCast inside short]
  simp [lift, Machine.plain, ofBytes, Machine.register, Vector.get]

theorem setRegister_plain (x : Register) {value : Int} {byte : UInt8} (same : value = byte.toNat) :
    setRegister x.val value machine.plain = (.ok (), (machine.setRegister x byte).plain) := by
  obtain ⟨inside, short⟩ := registers_plain machine x
  have registers : machine.plain.registers.set x.val byte.toNat =
      ofBytes (machine.registers.set x byte x.lt).toList := by
    simp [Machine.plain, ofBytes, Vector.toList_set]
  rw [setRegister, read_bind, assign_natCast value inside short, lift_bind, write_apply, same,
    registers]
  rfl

theorem setWithFlag_plain (x : Register) {value flag : Int} {byte carried : UInt8}
    (same : value % 0x100 = byte.toNat) (sameFlag : flag = carried.toNat) :
    setWithFlag x.val value flag machine.plain =
      (.ok (), (machine.setWithFlag x byte carried).plain) := by
  rw [setWithFlag, bind_of_ok _ (setRegister_plain x same)]
  exact setRegister_plain Machine.flag sameFlag

theorem skipIf_plain (condition : Bool) :
    skipIf condition machine.plain = (.ok (), (machine.skipIf condition).plain) := by
  have wrapped : ((machine.pc.toNat : Int) + 2) % 0x10000 = (machine.pc + 2).toNat := by
    rw [UInt16.toNat_add]
    rfl
  cases condition with
  | false => rfl
  | true =>
      change setPc (((machine.pc.toNat : Int) + 2) % 0x10000) machine.plain = _
      rw [wrapped]
      rfl

/-! The keypad. -/

theorem position_key (access : KeyAccess) (number : Int) :
    position access 16 number = (Keypad.key access number).mapError Refusal.key := by
  rw [position, Keypad.key]
  split
  · rfl
  · split
    · next inside =>
        have same : -16 ≤ number ∧ number < 16 := inside
        rw [if_pos same]
        refine congrArg Except.ok (Fin.ext ?_)
        simp only [Nibble.ofNat, Fin.val_ofNat]
        omega
    · next outside =>
        have other : ¬ (-16 ≤ number ∧ number < 16) := outside
        rw [if_neg other]
        rfl

theorem length_keys (machine : Machine ρ) : 16 = machine.plain.keys.length := by
  simp [Machine.plain]

theorem keyPressed_plain (number : Int) :
    keyPressed number machine.plain =
      ((machine.keypad.keyPressed number).mapError Refusal.key, machine.plain) := by
  rw [keyPressed, read_bind, item, position_congr (length_keys machine), position_key,
    Keypad.keyPressed]
  cases Keypad.key .reading number with
  | error refusal => rfl
  | ok key =>
      have same : machine.plain.keys.get (key.cast (length_keys machine)) =
          machine.keypad.isPressed key := by
        simp [Machine.plain, Keypad.isPressed, Vector.get]
        rfl
      exact congrArg (fun pressed => (Except.ok pressed, machine.plain)) same

theorem setKey_plain (number : Int) (pressed : Bool) :
    setKey number pressed machine.plain =
      match (machine.keypad.setKeyPressed number pressed).mapError Refusal.key with
      | .ok keypad => (.ok (), { machine with keypad }.plain)
      | .error refusal => (.error refusal, machine.plain) := by
  rw [setKey, read_bind, assign, position_congr (length_keys machine), position_key,
    Keypad.setKeyPressed]
  cases Keypad.key .writing number with
  | error refusal => rfl
  | ok key =>
      have same : machine.plain.keys.set key.val pressed =
          (machine.keypad.pressed.set key pressed key.lt).toList := by
        simp [Machine.plain, Vector.toList_set]
      exact congrArg (fun keys => (Except.ok (), { machine.plain with keys })) same

theorem firstPressed_plain :
    firstPressed machine.plain =
      (.ok (machine.keypad.firstPressed.map fun key => (key.val : Int)), machine.plain) := by
  have same : (fun key : Nat => machine.plain.keys.getD key false) ∘ Fin.val =
      machine.keypad.isPressed := by
    funext key
    simp [Machine.plain, Keypad.isPressed, Vector.get]
  rw [firstPressed, read_bind, pure_apply, ← length_keys, ← List.map_coe_finRange_eq_range,
    List.find?_map, same, Option.map_map]
  rfl

end Chip8.Plain
