import Chip8.Proofs.Machine.Session

namespace Chip8

/-- Registers are stored up to one of them, all having been given new contents before. -/
structure Transfer where
  upTo : Register
  contents : Vector UInt8 16
  deriving DecidableEq

namespace Transfer

def bytes (transfer : Transfer) : List UInt8 :=
  transfer.contents.toList.take (transfer.upTo.val + 1)

/-- The number of cells that some transfers take up one after the other. -/
def total (transfers : List Transfer) : Nat :=
  (transfers.map fun transfer => transfer.upTo.val + 1).sum

theorem length_bytes (transfer : Transfer) : transfer.bytes.length = transfer.upTo.val + 1 := by
  have bound := transfer.upTo.isLt
  rw [bytes, List.length_take, Vector.length_toList]
  omega

theorem length_flatMap_bytes (transfers : List Transfer) :
    (transfers.flatMap bytes).length = total transfers := by
  rw [List.length_flatMap, total]
  exact congrArg List.sum (List.map_congr_left fun transfer _ => transfer.length_bytes)

theorem total_cons (transfer : Transfer) (rest : List Transfer) :
    total (transfer :: rest) = transfer.upTo.val + 1 + total rest := by
  rw [total, List.map_cons, List.sum_cons, total]

end Transfer

namespace Machine

/-! Registers that are stored in memory and loaded again, and the decimal digits of a register. -/

variable {ρ : Type} {machine later : Machine ρ} {x : Register}
  {transfers : List Transfer} {bytes : List UInt8}

/-- Stores one after the other. -/
def storeAll (machine : Machine ρ) : List Transfer → Except Fault (Machine ρ)
  | [] => .ok machine
  | transfer :: rest => do
      let given : Machine ρ := { machine with registers := transfer.contents }
      let stored ← given.execRegister transfer.upTo .store
      stored.storeAll rest

/-- Loads one after the other. -/
def loadAll (machine : Machine ρ) : List Register → Except Fault (Machine ρ)
  | [] => .ok machine
  | x :: rest => do
      let loaded ← machine.execRegister x .load
      loaded.loadAll rest

/-- The cells outside of a block are as they were. -/
def KeepsOutside (machine : Machine ρ) (size : Nat) (after : Machine ρ) : Prop :=
  ∀ address : Address,
    address.val < machine.index.toNat ∨ machine.index.toNat + size ≤ address.val →
      after.memory.cell address = machine.memory.cell address

/-- The registers up to `x` have these contents afterwards, and the higher ones are as they were. -/
def TakesOver (x : Register) (contents : Vector UInt8 16) (earlier later : Machine ρ) : Prop :=
  ∀ k, later.register k = if k ≤ x then contents.get k else earlier.register k

theorem toNat_indexAfterTransfer (machine : Machine ρ)
    (moving : machine.settings.incrementIndex = true)
    (room : machine.index.toNat + (x.val + 1) ≤ 4096) :
    (machine.indexAfterTransfer x).toNat = machine.index.toNat + (x.val + 1) := by
  rw [indexAfterTransfer, if_pos moving, UInt16.toNat_add, UInt16.toNat_ofNat']
  omega

/-! One transfer. -/

theorem store_eq_ok (machine : Machine ρ) (room : machine.index.toNat + (x.val + 1) ≤ 4096) :
    machine.execRegister x .store = .ok { machine with
      memory := machine.memory.put machine.index.toNat (machine.registers.toList.take (x.val + 1))
      index := machine.indexAfterTransfer x } := by
  rw [execRegister, Memory.writeBlock_eq_ok (by rw [length_lowest]; exact room)]
  rfl

theorem load_eq_ok (held : machine.memory.Holds machine.index.toNat bytes)
    (size : bytes.length = x.val + 1) :
    ∃ later, machine.execRegister x .load = .ok later ∧
      (∀ k, later.register k = if k ≤ x then bytes.getD k.val 0 else machine.register k) ∧
        later.index = machine.indexAfterTransfer x ∧ later.memory = machine.memory ∧
          later.settings = machine.settings := by
  have done : machine.execRegister x .load = .ok { machine with
      registers := Vector.ofFn fun k : Register =>
        if k ≤ x then bytes.getD k.val 0 else machine.register k
      index := machine.indexAfterTransfer x } := by
    rw [execRegister, ← size, Memory.readBlock_of_holds held]
    rfl
  refine ⟨_, done, fun k => ?_, rfl, rfl, rfl⟩
  change Vector.get (Vector.ofFn _) k = _
  rw [Vector.get_eq_getElem, Vector.getElem_ofFn]

theorem keepsOutside_of_put {size : Nat} (length : bytes.length = size)
    (written : later.memory = machine.memory.put machine.index.toNat bytes) :
    machine.KeepsOutside size later := by
  intro address outside
  rw [written]
  exact Memory.cell_put_frame (by rw [length]; exact outside)

/-- A load takes over what a transfer has left in memory. -/
theorem load_of_holds {transfer : Transfer}
    (held : machine.memory.Holds machine.index.toNat transfer.bytes) :
    ∃ later, machine.execRegister transfer.upTo .load = .ok later ∧
      TakesOver transfer.upTo transfer.contents machine later ∧
        later.index = machine.indexAfterTransfer transfer.upTo ∧ later.memory = machine.memory ∧
          later.settings = machine.settings := by
  obtain ⟨later, done, registers, moved⟩ := load_eq_ok held transfer.length_bytes
  refine ⟨later, done, fun k => ?_, moved⟩
  rw [registers]
  split
  · next low =>
      have inside : k.val < transfer.bytes.length := by
        rw [transfer.length_bytes]
        exact Nat.lt_succ_of_le low
      rw [List.getD_eq_getElem _ _ inside]
      simp [Transfer.bytes, Vector.get_eq_getElem]
  · rfl

/-! Series of transfers. -/

/-- What a series of stores leaves. -/
structure Stores (machine : Machine ρ) (transfers : List Transfer) (stored : Machine ρ) : Prop where
  done : machine.storeAll transfers = .ok stored
  index : stored.index.toNat = machine.index.toNat + Transfer.total transfers
  settings : stored.settings = machine.settings
  held : stored.memory.Holds machine.index.toNat (transfers.flatMap Transfer.bytes)
  outside : machine.KeepsOutside (Transfer.total transfers) stored

theorem exists_stores (machine : Machine ρ) (moving : machine.settings.incrementIndex = true)
    (room : machine.index.toNat + Transfer.total transfers ≤ 4096) :
    ∃ stored, machine.Stores transfers stored := by
  induction transfers generalizing machine with
  | nil => exact ⟨machine, rfl, rfl, rfl, ⟨room, nofun⟩, fun _ _ => rfl⟩
  | cons transfer rest ih =>
      rw [Transfer.total_cons] at room
      let given : Machine ρ := { machine with registers := transfer.contents }
      let first : Machine ρ := { given with
        memory := machine.memory.put machine.index.toNat transfer.bytes
        index := given.indexAfterTransfer transfer.upTo }
      have size := transfer.length_bytes
      have done : given.execRegister transfer.upTo .store = .ok first :=
        given.store_eq_ok (by change machine.index.toNat + _ ≤ _; omega)
      have next : first.index.toNat = machine.index.toNat + (transfer.upTo.val + 1) :=
        given.toNat_indexAfterTransfer moving
          (by change machine.index.toNat + _ ≤ _; omega)
      obtain ⟨stored, further⟩ := ih first moving (by omega)
      -- The later stores begin behind the first block, so it stays as it was written.
      have block : stored.memory.Holds machine.index.toNat transfer.bytes :=
        (Memory.holds_put (by omega) : first.memory.Holds _ _).congr fun address _ below =>
          further.outside address (Or.inl (by omega))
      refine ⟨stored, ?_, ?_, further.settings, ?_, fun address beyond => ?_⟩
      · rw [storeAll, done]
        exact further.done
      · rw [further.index, next, Transfer.total_cons, Nat.add_assoc]
      · rw [List.flatMap_cons]
        refine block.append ?_
        rw [size, ← next]
        exact further.held
      · rw [Transfer.total_cons] at beyond
        rw [further.outside address (by omega)]
        exact Memory.cell_put_frame (by omega)

theorem loadAll_eq_ok (machine : Machine ρ) (moving : machine.settings.incrementIndex = true)
    (held : machine.memory.Holds machine.index.toNat (transfers.flatMap Transfer.bytes)) :
    ∃ loaded, machine.loadAll (transfers.map Transfer.upTo) = .ok loaded ∧
      loaded.index.toNat = machine.index.toNat + Transfer.total transfers ∧
        loaded.memory = machine.memory ∧ loaded.settings = machine.settings := by
  induction transfers generalizing machine with
  | nil => exact ⟨machine, rfl, rfl, rfl, rfl⟩
  | cons transfer rest ih =>
      rw [List.flatMap_cons] at held
      have block := held.append_left
      obtain ⟨first, done, _, next, memory, settings⟩ := load_of_holds block
      have size := transfer.length_bytes
      have room := block.1
      have index : first.index.toNat = machine.index.toNat + (transfer.upTo.val + 1) := by
        rw [next]
        exact machine.toNat_indexAfterTransfer moving (by omega)
      obtain ⟨loaded, further, final, same, kept⟩ := ih first
        (by rw [settings, moving]) (by rw [memory, index, ← size]; exact held.append_right)
      refine ⟨loaded, ?_, ?_, same.trans memory, kept.trans settings⟩
      · rw [List.map_cons, loadAll, done]
        exact further
      · rw [final, index, Transfer.total_cons, Nat.add_assoc]

/-- Each load of a series finds the block of the transfer in its place. -/
theorem loadAll_takes (machine : Machine ρ) (moving : machine.settings.incrementIndex = true)
    (held : machine.memory.Holds machine.index.toNat (transfers.flatMap Transfer.bytes))
    {before after : List Transfer} {transfer : Transfer}
    (split : transfers = before ++ transfer :: after) :
    ∃ earlier later, machine.loadAll (before.map Transfer.upTo) = .ok earlier ∧
      earlier.execRegister transfer.upTo .load = .ok later ∧
        TakesOver transfer.upTo transfer.contents earlier later := by
  rw [split, List.flatMap_append] at held
  obtain ⟨earlier, done, index, memory, _⟩ := machine.loadAll_eq_ok moving held.append_left
  have behind := held.append_right
  rw [List.flatMap_cons, Transfer.length_flatMap_bytes, ← index, ← memory] at behind
  obtain ⟨later, loaded, taken, _⟩ := load_of_holds behind.append_left
  exact ⟨earlier, later, done, loaded, taken⟩

/-! Decimal digits. -/

theorem digits_eq_ok (room : machine.index.toNat + 3 ≤ 4096) :
    machine.execRegister x .digits = .ok { machine with
      memory := machine.memory.put machine.index.toNat
        [machine.register x / 100, machine.register x / 10 % 10, machine.register x % 10] } := by
  rw [execRegister, Memory.writeBlock_eq_ok room]
  rfl

theorem decimal_digits (value : UInt8) :
    (value / 100).toNat ≤ 9 ∧ (value / 10 % 10).toNat ≤ 9 ∧ (value % 10).toNat ≤ 9 ∧
      100 * (value / 100).toNat + 10 * (value / 10 % 10).toNat + (value % 10).toNat =
        value.toNat := by
  have bound := value.toNat_lt
  simp only [UInt8.toNat_div, UInt8.toNat_mod, UInt8.reduceToNat]
  omega

/-- Registers that were stored one block after the other are loaded again one block after the
    other, whatever the registers hold by then: each load gives back what its store was given, and
    leaves the higher registers alone. Where the index stays, the same holds of a single store and
    load. The digits of a register are written in three cells, and a load finds them there. -/
theorem stores_load_back (machine : Machine ρ) :
    (machine.settings.incrementIndex = true → ∀ transfers : List Transfer,
      machine.index.toNat + Transfer.total transfers ≤ 4096 →
        ∃ stored, machine.storeAll transfers = .ok stored ∧
          stored.index.toNat = machine.index.toNat + Transfer.total transfers ∧
            machine.KeepsOutside (Transfer.total transfers) stored ∧
              ∀ registers : Vector UInt8 16,
                let back : Machine ρ := { stored with index := machine.index, registers }
                (∃ loaded, back.loadAll (transfers.map Transfer.upTo) = .ok loaded ∧
                  loaded.index.toNat = machine.index.toNat + Transfer.total transfers ∧
                    loaded.memory = stored.memory) ∧
                  ∀ before transfer after, transfers = before ++ transfer :: after →
                    ∃ earlier later, back.loadAll (before.map Transfer.upTo) = .ok earlier ∧
                      earlier.execRegister transfer.upTo .load = .ok later ∧
                        TakesOver transfer.upTo transfer.contents earlier later) ∧
      (machine.settings.incrementIndex = false → ∀ x : Register,
        machine.index.toNat + (x.val + 1) ≤ 4096 →
          ∃ stored, machine.execRegister x .store = .ok stored ∧ stored.index = machine.index ∧
            machine.KeepsOutside (x.val + 1) stored ∧
              ∀ registers : Vector UInt8 16,
                let back : Machine ρ := { stored with registers }
                ∃ loaded, back.execRegister x .load = .ok loaded ∧
                  loaded.index = machine.index ∧ loaded.memory = stored.memory ∧
                    TakesOver x machine.registers back loaded) ∧
        (machine.index.toNat + 3 ≤ 4096 → ∀ x : Register,
          ∃ (hundreds tens ones : UInt8) (written : Machine ρ),
            machine.execRegister x .digits = .ok written ∧
              hundreds.toNat ≤ 9 ∧ tens.toNat ≤ 9 ∧ ones.toNat ≤ 9 ∧
                100 * hundreds.toNat + 10 * tens.toNat + ones.toNat = (machine.register x).toNat ∧
                  written.memory.Holds machine.index.toNat [hundreds, tens, ones] ∧
                    machine.KeepsOutside 3 written ∧
                      written = { machine with memory := written.memory } ∧
                        ∃ loaded, written.execRegister 2 .load = .ok loaded ∧
                          loaded.register 0 = hundreds ∧ loaded.register 1 = tens ∧
                            loaded.register 2 = ones) := by
  refine ⟨fun moving transfers room => ?_, fun fixed x room => ?_, fun room x => ?_⟩
  · obtain ⟨stored, stores⟩ := machine.exists_stores moving room
    have still : stored.settings.incrementIndex = true := by rw [stores.settings, moving]
    refine ⟨stored, stores.done, stores.index, stores.outside, fun registers => ⟨?_, ?_⟩⟩
    · obtain ⟨loaded, done, index, memory, _⟩ :=
        loadAll_eq_ok { stored with index := machine.index, registers } still
          stores.held
      exact ⟨loaded, done, index, memory⟩
    · intro before transfer after split
      exact loadAll_takes { stored with index := machine.index, registers } still
        stores.held split
  · have stays : ¬ machine.settings.incrementIndex = true := by rw [fixed]; exact Bool.false_ne_true
    have size := machine.length_lowest x
    refine ⟨_, machine.store_eq_ok room, indexAfterTransfer_eq stays, keepsOutside_of_put size rfl,
      fun registers => ?_⟩
    intro back
    have index : back.index = machine.index := indexAfterTransfer_eq stays
    have held : back.memory.Holds back.index.toNat
        (Transfer.bytes { upTo := x, contents := machine.registers }) := by
      rw [index]
      exact Memory.holds_put (by rw [size]; exact room)
    obtain ⟨loaded, done, taken, next, memory, _⟩ := load_of_holds held
    exact ⟨loaded, done, (next.trans (indexAfterTransfer_eq stays)).trans index, memory, taken⟩
  · let digits : List UInt8 :=
      [machine.register x / 100, machine.register x / 10 % 10, machine.register x % 10]
    let written : Machine ρ :=
      { machine with memory := machine.memory.put machine.index.toNat digits }
    have held : written.memory.Holds written.index.toNat digits := Memory.holds_put room
    obtain ⟨first, second, third, whole⟩ := decimal_digits (machine.register x)
    obtain ⟨loaded, done, registers, _⟩ := load_eq_ok (x := 2) held rfl
    refine ⟨_, _, _, written, digits_eq_ok room, first, second, third, whole, held,
      keepsOutside_of_put (rfl : digits.length = 3) rfl, rfl, ?_⟩
    exact ⟨loaded, done, registers 0, registers 1, registers 2⟩

/-- Two blocks fill the last four cells of memory, and three registers or the digits of one of them
    the last three. -/
theorem stores_load_back_last_cells :
    ∃ moving fixed : Machine ByteCycle,
      boot [] { incrementIndex := true } { values := [] } = .ok moving ∧
        boot [] {} { values := [] } = .ok fixed ∧
          let first : Transfer := { upTo := 1, contents := Vector.replicate 16 7 }
          let second : Transfer := { upTo := 1, contents := Vector.replicate 16 9 }
          let series := (moving.session [.assignIndex 0xFFC]).2
          let single := (fixed.session [.assignIndex 0xFFD, .assignRegister 2 255]).2
          (∃ stored, series.storeAll [first, second] = .ok stored ∧ stored.index.toNat = 0x1000 ∧
            let back := { stored with index := series.index, registers := Vector.replicate 16 0 }
            ∃ earlier later, back.loadAll [1] = .ok earlier ∧
              earlier.execRegister 1 .load = .ok later ∧
                TakesOver 1 second.contents earlier later) ∧
            (∃ stored, single.execRegister 2 .store = .ok stored ∧
              single.KeepsOutside 3 stored) ∧
              ∃ hundreds tens ones written, single.execRegister 2 .digits = .ok written ∧
                100 * hundreds.toNat + 10 * tens.toNat + ones.toNat = 255 ∧
                  written.memory.Holds 0xFFD [hundreds, tens, ones] := by
  obtain ⟨moving, booted, moves, start⟩ : ∃ machine : Machine ByteCycle,
      boot [] { incrementIndex := true } { values := [] } = .ok machine ∧
        let series := (machine.session [.assignIndex 0xFFC]).2
        series.settings.incrementIndex = true ∧ series.index.toNat = 0xFFC :=
    ⟨_, rfl, by decide +kernel⟩
  obtain ⟨fixed, bootedFixed, stays, index, value⟩ : ∃ machine : Machine ByteCycle,
      boot [] {} { values := [] } = .ok machine ∧
        let single := (machine.session [.assignIndex 0xFFD, .assignRegister 2 255]).2
        single.settings.incrementIndex = false ∧ single.index.toNat = 0xFFD ∧
          (single.register 2).toNat = 255 := ⟨_, rfl, by decide +kernel⟩
  refine ⟨moving, fixed, booted, bootedFixed, ?_⟩
  intro first second series single
  refine ⟨?_, ?_, ?_⟩
  · have size : Transfer.total [first, second] = 4 := rfl
    obtain ⟨stored, done, final, _, loads⟩ :=
      (stores_load_back series).1 moves [first, second] (by rw [start, size])
    refine ⟨stored, done, by rw [final, start, size], ?_⟩
    exact (loads (Vector.replicate 16 0)).2 [first] second [] rfl
  · obtain ⟨stored, done, _, outside, _⟩ :=
      (stores_load_back _).2.1 stays 2 (by rw [index]; decide)
    exact ⟨stored, done, outside⟩
  · obtain ⟨hundreds, tens, ones, written, done, _, _, _, whole, held, _⟩ :=
      (stores_load_back _).2.2 (by rw [index]) 2
    rw [index] at held
    rw [value] at whole
    exact ⟨hundreds, tens, ones, written, done, whole, held⟩

end Machine

end Chip8
