import Chip8.Proofs.Machine.Memory
import Chip8.Proofs.Plain.Machine

namespace Chip8

/-! Every machine seen as a plain one. The plain machines that are seen so are exactly those in
    range. -/

variable {ρ : Type}

namespace Plain

def ofPixels (line : BitVec 64) : List Int :=
  (List.range 64).map fun x => if line.getMsbD x then 1 else 0

def ofAddresses (addresses : List UInt16) : List Int :=
  addresses.map fun address => address.toNat

/-- The ranges of all parts of the machine, save for the number of stack entries. -/
structure InRange (machine : Plain ρ) : Prop where
  pc : 0 ≤ machine.pc ∧ machine.pc ≤ 0xFFFF
  index : 0 ≤ machine.index ∧ machine.index ≤ 0xFFFF
  registers : machine.registers.length = 16 ∧ ∀ value ∈ machine.registers, 0 ≤ value ∧ value ≤ 0xFF
  delay : 0 ≤ machine.delay ∧ machine.delay ≤ 0xFF
  sound : 0 ≤ machine.sound ∧ machine.sound ≤ 0xFF
  waiting : ∀ x, machine.waiting = some x → 0 ≤ x ∧ x ≤ 15
  cells : machine.cells.length = 4096 ∧ ∀ value ∈ machine.cells, 0 ≤ value ∧ value ≤ 0xFF
  stack : ∀ entry ∈ machine.stack, 0 ≤ entry ∧ entry ≤ 0xFFFF
  rows : machine.rows.length = 32 ∧
    ∀ row ∈ machine.rows, row.length = 64 ∧ ∀ cell ∈ row, cell = 0 ∨ cell = 1
  keys : machine.keys.length = 16

end Plain

def Framebuffer.plainRows (display : Framebuffer) : List (List Int) :=
  display.rows.toList.map Plain.ofPixels

def Machine.plain (machine : Machine ρ) : Plain ρ where
  pc := machine.pc.toNat
  index := machine.index.toNat
  registers := Plain.ofBytes machine.registers.toList
  delay := machine.delay.toNat
  sound := machine.sound.toNat
  waiting := machine.waiting.map fun x => (x.val : Int)
  cells := Plain.ofBytes machine.memory.cells.toList
  stack := Plain.ofAddresses machine.stack.entries.reverse
  depth := machine.stack.depth
  rows := machine.display.plainRows
  clip := machine.display.clip
  keys := machine.keypad.pressed.toList
  random := machine.random
  settings := machine.settings

namespace Plain

theorem ofBytes_range (bytes : List UInt8) : ∀ value ∈ ofBytes bytes, 0 ≤ value ∧ value ≤ 0xFF := by
  intro value member
  obtain ⟨byte, _, rfl⟩ := List.mem_map.mp member
  have bound := byte.toNat_lt
  omega

theorem ofAddresses_range (addresses : List UInt16) :
    ∀ value ∈ ofAddresses addresses, 0 ≤ value ∧ value ≤ 0xFFFF := by
  intro value member
  obtain ⟨address, _, rfl⟩ := List.mem_map.mp member
  have bound := address.toNat_lt
  omega

theorem ofPixels_range (line : BitVec 64) :
    (ofPixels line).length = 64 ∧ ∀ cell ∈ ofPixels line, cell = 0 ∨ cell = 1 := by
  refine ⟨by rw [ofPixels, List.length_map, List.length_range], ?_⟩
  intro cell member
  obtain ⟨x, _, rfl⟩ := List.mem_map.mp member
  cases line.getMsbD x with
  | false => exact Or.inl rfl
  | true => exact Or.inr rfl

theorem inRange_plain (machine : Machine ρ) : machine.plain.InRange where
  pc := by
    have bound := machine.pc.toNat_lt
    simp only [Machine.plain]
    omega
  index := by
    have bound := machine.index.toNat_lt
    simp only [Machine.plain]
    omega
  registers := ⟨by simp [Machine.plain, ofBytes], ofBytes_range _⟩
  delay := by
    have bound := machine.delay.toNat_lt
    simp only [Machine.plain]
    omega
  sound := by
    have bound := machine.sound.toNat_lt
    simp only [Machine.plain]
    omega
  waiting := by
    intro x found
    obtain ⟨register, _, rfl⟩ := Option.map_eq_some_iff.mp found
    have bound := register.isLt
    omega
  cells := ⟨by simp [Machine.plain, ofBytes], ofBytes_range _⟩
  stack := ofAddresses_range _
  rows := by
    refine ⟨by simp [Machine.plain, Framebuffer.plainRows], ?_⟩
    intro row member
    obtain ⟨line, _, rfl⟩ := List.mem_map.mp member
    exact ofPixels_range line
  keys := by simp [Machine.plain]

/-! Back from lists of numbers in range. -/

theorem toNat_ofInt_address {value : Int} (range : 0 ≤ value ∧ value ≤ 0xFFFF) :
    ((UInt16.ofInt value).toNat : Int) = value := by
  simp only [UInt16.ofInt, UInt16.toNat_ofNat']
  omega

theorem toNat_ofInt_byte {value : Int} (range : 0 ≤ value ∧ value ≤ 0xFF) :
    ((UInt8.ofInt value).toNat : Int) = value := by
  have same := toNat_ofInt value
  omega

theorem ofInt_ofBytes (values : List UInt8) : (ofBytes values).map UInt8.ofInt = values := by
  rw [ofBytes, List.map_map]
  exact (List.map_congr_left fun byte _ => ofInt_toNat byte).trans (List.map_id values)

theorem exists_ofBytes {values : List Int} (range : ∀ value ∈ values, 0 ≤ value ∧ value ≤ 0xFF) :
    ∃ bytes : List UInt8, ofBytes bytes = values ∧ bytes.length = values.length := by
  refine ⟨values.map UInt8.ofInt, ?_, List.length_map ..⟩
  rw [ofBytes, List.map_map]
  exact (List.map_congr_left fun value member => toNat_ofInt_byte (range value member)).trans
    (List.map_id values)

theorem exists_ofAddresses {values : List Int}
    (range : ∀ value ∈ values, 0 ≤ value ∧ value ≤ 0xFFFF) :
    ∃ addresses : List UInt16, ofAddresses addresses = values := by
  refine ⟨values.map UInt16.ofInt, ?_⟩
  rw [ofAddresses, List.map_map]
  exact (List.map_congr_left fun value member => toNat_ofInt_address (range value member)).trans
    (List.map_id values)

theorem exists_ofPixels {row : List Int} (length : row.length = 64)
    (range : ∀ cell ∈ row, cell = 0 ∨ cell = 1) : ∃ line, ofPixels line = row := by
  have width : (row.map (· == 1)).length = 64 := by rw [List.length_map, length]
  refine ⟨(BitVec.ofBoolListBE (row.map (· == 1))).cast width, ?_⟩
  apply List.ext_getElem (by rw [(ofPixels_range _).1, length])
  intro x _ inside
  have bit : ((BitVec.ofBoolListBE (row.map (· == 1))).cast width).getMsbD x = (row[x] == 1) := by
    rw [BitVec.getMsbD_cast, BitVec.getMsbD_ofBoolListBE, List.getD_eq_getElem _ _ (by simpa)]
    simp
  simp only [ofPixels, List.getElem_map, List.getElem_range, bit]
  rcases range row[x] (List.getElem_mem inside) with dark | lit
  · simp [dark]
  · simp [lit]

theorem exists_rows {rows : List (List Int)}
    (range : ∀ row ∈ rows, row.length = 64 ∧ ∀ cell ∈ row, cell = 0 ∨ cell = 1) :
    ∃ lines : List (BitVec 64), lines.map ofPixels = rows := by
  induction rows with
  | nil => exact ⟨[], rfl⟩
  | cons row rows ih =>
      obtain ⟨⟨length, cells⟩, others⟩ := List.forall_mem_cons.mp range
      obtain ⟨line, here⟩ := exists_ofPixels length cells
      obtain ⟨lines, further⟩ := ih others
      exact ⟨line :: lines, by rw [List.map_cons, here, further]⟩

theorem exists_waiting {waiting : Option Int} (range : ∀ x, waiting = some x → 0 ≤ x ∧ x ≤ 15) :
    ∃ register : Option Register, register.map (fun x => (x.val : Int)) = waiting := by
  cases waiting with
  | none => exact ⟨none, rfl⟩
  | some x =>
      obtain ⟨lower, upper⟩ := range x rfl
      refine ⟨some ⟨x.toNat, by omega⟩, ?_⟩
      simp [Int.toNat_of_nonneg lower]

theorem InRange.exists_plain {machine : Plain ρ} (range : machine.InRange) :
    ∃ typed : Machine ρ, typed.plain = machine := by
  obtain ⟨registers, registersSame, registersLength⟩ := exists_ofBytes range.registers.2
  obtain ⟨cells, cellsSame, cellsLength⟩ := exists_ofBytes range.cells.2
  obtain ⟨stack, stackSame⟩ := exists_ofAddresses range.stack
  obtain ⟨lines, linesSame⟩ := exists_rows range.rows.2
  obtain ⟨waiting, waitingSame⟩ := exists_waiting range.waiting
  refine ⟨{
    pc := UInt16.ofInt machine.pc
    index := UInt16.ofInt machine.index
    registers := ⟨registers.toArray, by simp [registersLength, range.registers.1]⟩
    delay := UInt8.ofInt machine.delay
    sound := UInt8.ofInt machine.sound
    waiting
    memory := ⟨⟨cells.toArray, by simp [cellsLength, range.cells.1]⟩⟩
    stack := { depth := machine.depth, entries := stack.reverse }
    display := { clip := machine.clip, rows := ⟨lines.toArray, by
      simp [← range.rows.1, ← linesSame]⟩ }
    keypad := ⟨⟨machine.keys.toArray, by simp [range.keys]⟩⟩
    random := machine.random
    settings := machine.settings }, ?_⟩
  simp [Machine.plain, Framebuffer.plainRows, registersSame, cellsSame, stackSame, linesSame,
    waitingSame, toNat_ofInt_address range.pc, toNat_ofInt_address range.index,
    toNat_ofInt_byte range.delay, toNat_ofInt_byte range.sound]

end Plain

end Chip8
