import Chip8.Proofs.Plain.Mirror

namespace Chip8

/-! Bytes, words, blocks and programs are several ways to one list of bytes. Each of them is refused
    before the first byte is written, or else does what single bytes would do one at a time. -/

namespace Memory

variable {memory after : Memory} {address : Int} {byte : UInt8} {bytes : List UInt8} {size : Nat}

def writeEach (memory : Memory) (address : Int) : List UInt8 → Except Fault Memory
  | [] => .ok memory
  | byte :: rest => do (← memory.write8 address byte.toNat).writeEach (address + 1) rest

def readEach (memory : Memory) (address : Int) (size : Nat) : Except Fault (List UInt8) :=
  (List.range size).mapM fun index : Nat => memory.read8 (address + index)

/-- Exactly the accesses with a cell below or above memory are refused, by their address. -/
def RefusedOutside {α : Type} (outcome : Except Fault α) (address width : Int) : Prop :=
  ∀ fault, outcome = .error fault ↔
    fault = .memoryViolation address ∧ (address < 0 ∨ 4096 < address + width)

def SameOutside (memory : Memory) (address : Int) (width : Nat) (after : Memory) : Prop :=
  ∀ cell : Address, cell.val < address ∨ address + width ≤ cell.val →
    after.cell cell = memory.cell cell

theorem refusedOutside_access {α : Type} (address width : Int) (result : α) :
    RefusedOutside (access address width result) address width := by
  intro fault
  rw [access_eq_error_iff, and_comm]
  refine and_congr_right fun _ => ?_
  simp only [InRange]
  omega

/-! Every write puts a block into memory. -/

theorem set_eq_put {place : Nat} (inside : place < 4096) :
    memory.set (.ofNat place) byte = memory.put place [byte] := by
  have here : (Address.ofNat place).val = place := Nat.mod_eq_of_lt inside
  refine congrArg Memory.mk (Vector.ext fun index bound => ?_)
  simp only [here, Vector.getElem_set, Vector.getElem_setIfInBounds]

theorem write8_eq_writeBlock (memory : Memory) (address value : Int) :
    memory.write8 address value = memory.writeBlock address [UInt8.ofInt value] := by
  refine access_congr fun range => ?_
  obtain ⟨place, rfl⟩ := Int.eq_ofNat_of_zero_le range.1
  simp only [InRange] at range
  exact set_eq_put (by omega)

theorem write16_eq_writeBlock (memory : Memory) (address value : Int) :
    memory.write16 address value =
      memory.writeBlock address [UInt8.ofInt (value / 0x100), UInt8.ofInt value] := by
  refine access_congr fun range => ?_
  obtain ⟨place, rfl⟩ := Int.eq_ofNat_of_zero_le range.1
  simp only [InRange] at range
  have first : memory.set (.ofInt place) _ = memory.put place [.ofInt (value / 0x100)] :=
    set_eq_put (by omega)
  rw [first]
  exact set_eq_put (by omega : place + 1 < 4096)

theorem writeBlock_eq_ok_iff :
    memory.writeBlock address bytes = .ok after ↔
      InRange address bytes.length ∧ after = memory.put address.toNat bytes :=
  access_eq_ok_iff

theorem loadRom_eq_writeBlock (fits : bytes.length ≤ 3584) :
    memory.loadRom bytes = memory.writeBlock 0x200 bytes := by
  have written : memory.writeBlock (0x200 : Nat) bytes = _ := writeBlock_eq_ok (by omega)
  rw [loadRom, if_pos fits]
  exact written.symm

theorem writeBlock_cons (range : InRange address (byte :: bytes).length) :
    memory.writeBlock address (byte :: bytes) =
      (memory.writeBlock address [byte]).bind (·.writeBlock (address + 1) bytes) := by
  obtain ⟨place, rfl⟩ := Int.eq_ofNat_of_zero_le range.1
  have room := range.2
  rw [List.length_cons] at room
  have first : memory.writeBlock place [byte] = _ :=
    writeBlock_eq_ok (by rw [List.length_singleton]; omega)
  have further : (memory.put place [byte]).writeBlock (place + 1 : Nat) bytes = _ :=
    writeBlock_eq_ok (by omega)
  rw [writeBlock_eq_ok (by rw [List.length_cons]; omega), first]
  exact further.symm

theorem writeBlock_eq_writeEach (range : InRange address bytes.length) :
    memory.writeBlock address bytes = memory.writeEach address bytes := by
  induction bytes generalizing memory address with
  | nil => exact if_pos range
  | cons byte rest ih =>
      have further : InRange (address + 1) rest.length := by
        simp only [InRange, List.length_cons] at range ⊢
        omega
      rw [writeBlock_cons range, writeEach, write8_eq_writeBlock, ofInt_toNat]
      exact congrArg _ (funext fun next => ih further)

theorem write16_eq_write8 {value : Int} (range : InRange address 2) :
    memory.write16 address value =
      (memory.write8 address (value / 0x100)).bind (·.write8 (address + 1) value) := by
  rw [write16_eq_writeBlock, writeBlock_cons range, write8_eq_writeBlock]
  exact congrArg _ (funext fun next => (write8_eq_writeBlock ..).symm)

/-! What is read. -/

theorem read8_eq_ok (range : InRange address 1) :
    memory.read8 address = .ok (memory.cell (.ofInt address)) :=
  if_pos range

theorem readBlock_eq_readEach (range : InRange address size) :
    memory.readBlock address size = memory.readEach address size := by
  rw [readBlock_eq_cells range]
  symm
  rw [readEach, mapM_eq_ok_iff, List.forall₂_map_right_iff, List.forall₂_same]
  intro index listed
  have bound := List.mem_range.mp listed
  refine read8_eq_ok ?_
  simp only [InRange] at range ⊢
  omega

theorem read16_eq_read8 (range : InRange address 2) :
    ∃ high low word, memory.read8 address = .ok high ∧ memory.read8 (address + 1) = .ok low ∧
      memory.read16 address = .ok word ∧ word.toNat = 0x100 * high.toNat + low.toNat := by
  have first : InRange address 1 := by
    simp only [InRange] at range ⊢
    omega
  have second : InRange (address + 1) 1 := by
    simp only [InRange] at range ⊢
    omega
  refine ⟨_, _, _, read8_eq_ok first, read8_eq_ok second, if_pos range, ?_⟩
  have high := (memory.cell (.ofInt address)).toNat_lt
  have low := (memory.cell (.ofInt (address + 1))).toNat_lt
  rw [UInt16.toNat_ofNat']
  omega

/-! What is written stands where it was written, and all else is as before. -/

theorem writeBlock_leaves (written : memory.writeBlock address bytes = .ok after) :
    ∃ start : Nat, address = start ∧ after.Holds start bytes ∧
      memory.SameOutside address bytes.length after := by
  obtain ⟨range, rfl⟩ := writeBlock_eq_ok_iff.mp written
  obtain ⟨start, rfl⟩ := Int.eq_ofNat_of_zero_le range.1
  have room := range.2
  refine ⟨start, rfl, holds_put (by omega), fun cell outside => ?_⟩
  exact cell_put_frame (by simp only [Int.toNat_natCast]; omega)

theorem write8_leaves {value : Int} (written : memory.write8 address value = .ok after) :
    (∃ byte, after.read8 address = .ok byte ∧ (byte.toNat : Int) = value % 0x100) ∧
      memory.SameOutside address 1 after := by
  rw [write8_eq_writeBlock] at written
  obtain ⟨start, rfl, held, same⟩ := writeBlock_leaves written
  exact ⟨⟨_, read8_of_holds held (by simp : 0 < _), toNat_ofInt value⟩, same⟩

theorem write16_leaves {value : Int} (written : memory.write16 address value = .ok after) :
    (∃ word, after.read16 address = .ok word ∧ (word.toNat : Int) = value % 0x10000) ∧
      memory.SameOutside address 2 after := by
  rw [write16_eq_writeBlock] at written
  obtain ⟨start, rfl, held, same⟩ := writeBlock_leaves written
  refine ⟨⟨_, read16_of_holds held, ?_⟩, same⟩
  have high := toNat_ofInt (value / 0x100)
  have low := toNat_ofInt value
  rw [UInt16.toNat_ofNat']
  omega

theorem block_leaves (written : memory.writeBlock address bytes = .ok after) :
    after.readBlock address bytes.length = .ok bytes ∧
      memory.SameOutside address bytes.length after := by
  obtain ⟨start, rfl, held, same⟩ := writeBlock_leaves written
  exact ⟨readBlock_of_holds held, same⟩

theorem loadRom_eq_error_iff {fault : Fault} :
    memory.loadRom bytes = .error fault ↔
      fault = .romTooLarge bytes.length ∧ 3584 < bytes.length := by
  rw [loadRom]
  by_cases fits : bytes.length ≤ 3584
  · simp [fits, Nat.not_lt.mpr fits]
  · simp [fits, Nat.not_le.mp fits, eq_comm]

end Memory

/-- The ways to memory as requests of a host. -/
def Request.accesses (address value : Int) (size : Nat) (bytes : List UInt8) : List Request :=
  [.read8 address, .read16 address, .write8 address value, .write16 address value,
    .readBlock address size, .writeBlock address bytes, .loadRom bytes]

namespace Machine

variable {ρ α : Type} {machine : Machine ρ}

theorem change_of_refused {outcome : Except Refusal α} {reply : α → Reply} {effect : α → Machine ρ}
    {refusal : Refusal} (refused : (machine.change outcome reply effect).1 = .error refusal) :
    (machine.change outcome reply effect).2 = machine := by
  cases outcome with
  | ok result => cases refused
  | error reason => rfl

theorem serve_of_refused [ByteSource ρ] {address value : Int} {size : Nat} {bytes : List UInt8}
    {request : Request} {refusal : Refusal}
    (listed : request ∈ Request.accesses address value size bytes)
    (refused : (machine.serve request).1 = .error refusal) :
    (machine.serve request).2 = machine := by
  simp only [Request.accesses, List.mem_cons, List.not_mem_nil, or_false] at listed
  rcases listed with rfl | rfl | rfl | rfl | rfl | rfl | rfl
  · rfl
  · rfl
  · exact change_of_refused refused
  · exact change_of_refused refused
  · rfl
  · exact change_of_refused refused
  · exact change_of_refused refused

end Machine

namespace Memory

/-- Every access is refused exactly where a cell of it lies outside memory, a program exactly where
    it is too long. All others do what single bytes do, leave what was written where it was written
    and change no other cell. This holds of memory as a plain list as well, whose length nothing
    fixes and in which a write before a refusal would be seen. -/
theorem accesses_agree (memory : Memory) (address value : Int) (size : Nat)
    (bytes : List UInt8) :
    ((RefusedOutside (memory.read8 address) address 1 ∧
        RefusedOutside (memory.read16 address) address 2 ∧
        RefusedOutside (memory.write8 address value) address 1 ∧
        RefusedOutside (memory.write16 address value) address 2 ∧
        RefusedOutside (memory.readBlock address size) address size ∧
        RefusedOutside (memory.writeBlock address bytes) address bytes.length) ∧
      ∀ fault, memory.loadRom bytes = .error fault ↔
        fault = .romTooLarge bytes.length ∧ 3584 < bytes.length) ∧
    ((InRange address 2 → ∃ high low word, memory.read8 address = .ok high ∧
        memory.read8 (address + 1) = .ok low ∧ memory.read16 address = .ok word ∧
          word.toNat = 0x100 * high.toNat + low.toNat) ∧
      (InRange address 2 → memory.write16 address value =
        (memory.write8 address (value / 0x100)).bind (·.write8 (address + 1) value)) ∧
      (InRange address size → memory.readBlock address size = memory.readEach address size) ∧
      (InRange address bytes.length →
        memory.writeBlock address bytes = memory.writeEach address bytes) ∧
      (bytes.length ≤ 3584 → memory.loadRom bytes = memory.writeBlock 0x200 bytes)) ∧
    ((∀ after, memory.write8 address value = .ok after →
        (∃ byte, after.read8 address = .ok byte ∧ (byte.toNat : Int) = value % 0x100) ∧
          memory.SameOutside address 1 after) ∧
      (∀ after, memory.write16 address value = .ok after →
        (∃ word, after.read16 address = .ok word ∧ (word.toNat : Int) = value % 0x10000) ∧
          memory.SameOutside address 2 after) ∧
      (∀ after, memory.writeBlock address bytes = .ok after →
        after.readBlock address bytes.length = .ok bytes ∧
          memory.SameOutside address bytes.length after) ∧
      ∀ after, memory.loadRom bytes = .ok after →
        after.readBlock 0x200 bytes.length = .ok bytes ∧
          memory.SameOutside 0x200 bytes.length after) ∧
    ∀ (ρ : Type) [ByteSource ρ] (machine : Machine ρ), machine.memory = memory →
      ∀ request ∈ Request.accesses address value size bytes, ∀ reply after,
        Plain.serve request machine.plain = (reply, after) →
          (∃ final, machine.serve request = (reply, final) ∧ final.plain = after) ∧
            after.cells.length = 4096 ∧
              ∀ refusal, reply = .error refusal → after = machine.plain := by
  refine ⟨⟨?_, fun fault => loadRom_eq_error_iff⟩, ?_, ?_, ?_⟩
  · exact ⟨refusedOutside_access _ _ _, refusedOutside_access _ _ _, refusedOutside_access _ _ _,
      refusedOutside_access _ _ _, refusedOutside_access _ _ _, refusedOutside_access _ _ _⟩
  · exact ⟨read16_eq_read8, write16_eq_write8, readBlock_eq_readEach, writeBlock_eq_writeEach,
      loadRom_eq_writeBlock⟩
  · refine ⟨fun after => write8_leaves, fun after => write16_leaves, fun after => block_leaves,
      fun after loaded => ?_⟩
    have fits : bytes.length ≤ 3584 := by
      by_contra large
      cases (loadRom_eq_error_iff.mpr ⟨rfl, Nat.not_le.mp large⟩).symm.trans loaded
    exact block_leaves ((loadRom_eq_writeBlock fits).symm.trans loaded)
  · intro ρ _ machine _ request listed reply after served
    rw [Plain.serve_plain] at served
    cases served
    refine ⟨⟨_, rfl, rfl⟩, Plain.length_cells _, fun refusal refused => ?_⟩
    rw [Machine.serve_of_refused listed refused]

/-- The last word of memory, written as a negative number and as a block of two bytes, and one
    address too far. -/
theorem accesses_agree_last_word :
    InRange 0xFFE 2 ∧
      (∃ after, initial.write16 0xFFE (-2) = .ok after ∧
        ∃ word, after.read16 0xFFE = .ok word ∧ (word.toNat : Int) = 0xFFFE) ∧
        initial.writeBlock 0xFFE [1, 2] = initial.writeEach 0xFFE [1, 2] ∧
          ∃ machine : Machine ByteCycle, Machine.boot [] {} { values := [] } = .ok machine ∧
            Plain.serve (.write16 0xFFF (-2)) machine.plain =
              (.error (.fault (.memoryViolation 0xFFF)), machine.plain) := by
  have range : InRange 0xFFE 2 := by decide
  obtain ⟨machine, booted, fresh⟩ : ∃ machine : Machine ByteCycle,
      Machine.boot [] {} { values := [] } = .ok machine ∧ machine.memory = initial := ⟨_, rfl, rfl⟩
  obtain ⟨_, ⟨_, _, _, block, _⟩, ⟨_, word, _⟩, _⟩ := accesses_agree initial 0xFFE (-2) 2 [1, 2]
  obtain ⟨⟨⟨_, _, _, refused, _⟩, _⟩, _, _, served⟩ := accesses_agree initial 0xFFF (-2) 2 [1, 2]
  have beyond : initial.write16 0xFFF (-2) = .error (.memoryViolation 0xFFF) :=
    (refused _).mpr ⟨rfl, Or.inr (by decide)⟩
  obtain ⟨after, written⟩ : ∃ after, initial.write16 0xFFE (-2) = .ok after :=
    ⟨_, access_eq_ok_iff.mpr ⟨range, rfl⟩⟩
  refine ⟨range, ⟨after, written, (word after written).1⟩, block range, machine, booted, ?_⟩
  cases outcome : Plain.serve (.write16 0xFFF (-2)) machine.plain with
  | mk reply after =>
      have listed : Request.write16 0xFFF (-2) ∈ Request.accesses 0xFFF (-2) 2 [1, 2] := by
        simp [Request.accesses]
      obtain ⟨⟨final, done, _⟩, _, unchanged⟩ :=
        served ByteCycle machine fresh _ listed reply after outcome
      rw [Machine.serve, fresh, beyond] at done
      cases done
      rw [unchanged _ rfl]

end Memory

end Chip8
