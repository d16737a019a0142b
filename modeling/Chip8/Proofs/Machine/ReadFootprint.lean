import Chip8.Proofs.Machine.Surroundings
import Chip8.Proofs.Machine.Tracking

namespace Chip8

namespace Memory

variable {memory other : Memory} {start : Nat} {bytes : List UInt8} {address : Address}

/-- Of two memories that the same block is put into, a cell is the same if it was before or if it is
    of the block. -/
theorem cell_put_congr
    (same : address.val < start ∨ start + bytes.length ≤ address.val →
      other.cell address = memory.cell address) :
    (other.put start bytes).cell address = (memory.put start bytes).cell address := by
  by_cases outside : address.val < start ∨ start + bytes.length ≤ address.val
  · rw [cell_put_frame outside, cell_put_frame outside, same outside]
  · have place : address.val = start + (address.val - start) := by omega
    have bound : address.val - start < bytes.length := by omega
    rw [cell_put_lane bound place, cell_put_lane bound place]

end Memory

/-- The host looks into memory by itself or changes it. -/
def Request.AccessesMemory : Request → Prop
  | .read8 _ | .read16 _ | .readBlock _ _ | .draw _ _ _ _ => True
  | .write8 _ _ | .write16 _ _ | .writeBlock _ _ | .loadRom _ => True
  | _ => False

namespace Machine

/-! Two machines whose memories differ in some cells. A step tells them apart only if it reads one of
    these, and the cells that it writes are the same afterwards. -/

variable {ρ : Type} {machine other : Machine ρ} {cells more : Address → Prop}
  {starts : List (Machine ρ)} {requests : List Request}

/-- Two machines that differ in nothing but the contents of these cells. -/
def DifferIn (cells : Address → Prop) (machine other : Machine ρ) : Prop :=
  ∃ memory : Memory,
    (∀ address, ¬ cells address → memory.cell address = machine.memory.cell address) ∧
      other = { machine with memory }

theorem DifferIn.mono (differ : DifferIn cells machine other)
    (within : ∀ address, cells address → more address) : DifferIn more machine other := by
  obtain ⟨memory, same, rfl⟩ := differ
  exact ⟨memory, fun address apart => same address fun inside => apart (within address inside), rfl⟩

theorem of_heeds_cell {instruction : Instruction} {address : Address}
    (heeded : machine.Heeds instruction (.cell address)) :
    (∃ x y n, instruction = .draw x y n ∧ Memory.Covers machine.index.toNat n.val address) ∨
      ∃ x, instruction = .register .load x ∧
        Memory.Covers machine.index.toNat (x.val + 1) address := by
  cases instruction with
  | draw x y n => exact Or.inl ⟨x, y, n, rfl, heeded⟩
  | register op x =>
      cases op with
      | load => exact Or.inr ⟨x, rfl, heeded⟩
      | _ => cases heeded
  | _ => cases heeded

theorem stored_of_writes {instruction : Instruction} {address : Address}
    (written : machine.Writes instruction (.cell address)) :
    machine.index.toNat ≤ address.val ∧
      address.val < machine.index.toNat + (machine.stored instruction).length := by
  cases instruction with
  | register op x =>
      cases op with
      | digits => exact written
      | store =>
          rw [stored, length_lowest]
          exact ⟨written.1, by have upper := written.2; omega⟩
      | _ => cases written
  | _ => cases written

section Step

variable [ByteSource ρ]

/-- The cells that a step reads: none while the machine waits for a key, else the word at the program
    counter, and from the index on the rows of a sprite or the registers that are loaded. -/
def Reads (machine : Machine ρ) (address : Address) : Prop :=
  machine.waiting = none ∧ machine.pc.toNat ≤ 0xFFE ∧
    (address.val = machine.pc.toNat ∨ address.val = machine.pc.toNat + 1 ∨
      (∃ x y n, machine.step.1 = .ok (some (.draw x y n)) ∧
        machine.index.toNat ≤ address.val ∧ address.val < machine.index.toNat + n.val) ∨
      ∃ x, machine.step.1 = .ok (some (.register .load x)) ∧
        machine.index.toNat ≤ address.val ∧ address.val ≤ machine.index.toNat + x.val)

/-- The cells that a step writes. -/
def Overwrites (machine : Machine ρ) (address : Address) : Prop :=
  machine.Changes machine.step.1 (.cell address)

theorem reads_of_inspects {address : Address} (inspected : machine.Inspects (.cell address)) :
    machine.Reads address := by
  rcases inspected.cases with ⟨_, key, mistaken⟩ | ⟨free, inside, seen⟩
  · cases mistaken
  · refine ⟨free, inside, ?_⟩
    rcases seen with here | next | ⟨instruction, executed, heeded⟩
    · cases here
      exact Or.inl (Nat.mod_eq_of_lt (by omega))
    · cases next
      exact Or.inr (Or.inl (Nat.mod_eq_of_lt (by omega)))
    · rcases of_heeds_cell heeded with ⟨x, y, n, rfl, _, lower, upper⟩ | ⟨x, rfl, _, lower, upper⟩
      · exact Or.inr (Or.inr (Or.inl ⟨x, y, n, executed, lower, upper⟩))
      · exact Or.inr (Or.inr (Or.inr ⟨x, executed, lower, by omega⟩))

/-- What a step that is about to be taken makes of a memory. -/
def leave (machine : Machine ρ) (memory : Memory) : Memory :=
  match machine.step.1 with
  | .ok (some instruction) => memory.put machine.index.toNat (machine.stored instruction)
  | _ => memory

theorem past_memory (memory : Memory) :
    Surroundings.past { machine.surroundings with memory } machine =
      { machine.surroundings.past machine with memory := machine.leave memory } := by
  rw [Surroundings.past, Surroundings.past, leave]
  cases machine.step.1 with
  | error fault => rfl
  | ok executed => cases executed <;> rfl

theorem memory_step : machine.step.2.memory = machine.leave machine.memory :=
  (congrArg Surroundings.memory surroundings_step).trans
    (congrArg Surroundings.memory (past_memory machine.memory))

theorem cell_leave {memory : Memory} {address : Address}
    (same : ¬ machine.Overwrites address → memory.cell address = machine.memory.cell address) :
    (machine.leave memory).cell address = (machine.leave machine.memory).cell address := by
  rw [Overwrites] at same
  rw [leave, leave]
  cases result : machine.step.1 with
  | error fault =>
      rw [result] at same
      exact same nofun
  | ok executed =>
      rw [result] at same
      cases executed with
      | none =>
          refine same ?_
          rintro ⟨_, _, _, _, mistaken | mistaken⟩ <;> cases mistaken
      | some instruction =>
          refine Memory.cell_put_congr fun outside => same fun written => ?_
          have inside := stored_of_writes written
          omega

/-- A step that reads none of the cells in which two machines differ has the same outcome in both,
    and they differ afterwards in those that it has not written. -/
theorem DifferIn.step (differ : DifferIn cells machine other)
    (unread : ∀ address, machine.Reads address → ¬ cells address) :
    other.step.1 = machine.step.1 ∧
      DifferIn (fun address => cells address ∧ ¬ machine.Overwrites address)
        machine.step.2 other.step.2 := by
  obtain ⟨memory, same, rfl⟩ := differ
  have stepped := step_amid machine { machine.surroundings with memory }
    fun aspect inspected => by
      cases aspect with
      | cell address => exact same address (unread address (reads_of_inspects inspected))
      | _ => rfl
  have elsewhere : machine.amid { machine.surroundings with memory } = { machine with memory } := rfl
  rw [elsewhere, past_memory, ← surroundings_step] at stepped
  rw [stepped]
  refine ⟨rfl, machine.leave memory, fun address kept => ?_, rfl⟩
  rw [memory_step]
  refine cell_leave fun unwritten => same address fun inside => ?_
  exact kept ⟨inside, unwritten⟩

end Step

section Run

variable [ByteSource ρ]

/-- Where a step reads one of these cells, an earlier one has overwritten it. -/
def Hidden (cells : Address → Prop) (starts : List (Machine ρ)) : Prop :=
  ∀ earlier start later, starts = earlier ++ start :: later →
    ∀ address, start.Reads address → cells address →
      ∃ past ∈ earlier, past.Overwrites address

theorem Hidden.head {start : Machine ρ} {later : List (Machine ρ)}
    (hidden : Hidden cells (start :: later)) {address : Address} (read : start.Reads address) :
    ¬ cells address := by
  intro inside
  obtain ⟨past, member, _⟩ := hidden [] start later rfl address read inside
  cases member

theorem Hidden.tail {start : Machine ρ} {later : List (Machine ρ)}
    (hidden : Hidden cells (start :: later)) :
    Hidden (fun address => cells address ∧ ¬ start.Overwrites address) later := by
  rintro earlier next further rfl address read ⟨inside, unwritten⟩
  obtain ⟨past, member, written⟩ := hidden (start :: earlier) next further rfl address read inside
  rcases List.mem_cons.mp member with rfl | member
  · exact absurd written unwritten
  · exact ⟨past, member, written⟩

/-- Two machines that differ in cells that are hidden from the steps ahead of the first. Those that
    none of these steps overwrites are among `rest`. -/
def Apart (rest : Address → Prop) (ahead : List (Machine ρ)) (machine other : Machine ρ) : Prop :=
  ∃ cells : Address → Prop, DifferIn cells machine other ∧ Hidden cells ahead ∧
    ∀ address, cells address → (∀ start ∈ ahead, ¬ start.Overwrites address) → rest address

theorem tracks_apart {rest : Address → Prop} : Tracks (Apart (ρ := ρ) rest) where
  blocked := by
    rintro ahead machine _ ⟨cells, ⟨memory, _, rfl⟩, _⟩
    rfl
  ticked := by
    rintro ahead machine _ ⟨cells, ⟨memory, same, rfl⟩, hidden, left⟩
    exact ⟨cells, ⟨memory, same, rfl⟩, hidden, left⟩
  stepped := by
    rintro ahead machine other ⟨cells, differ, hidden, left⟩
    obtain ⟨outcome, next⟩ := differ.step fun _ => hidden.head
    refine ⟨outcome, _, next, hidden.tail, fun address remaining unwritten => ?_⟩
    exact left address remaining.1 (List.forall_mem_cons.mpr ⟨remaining.2, unwritten⟩)

theorem serve_apart {rest : Address → Prop} {ahead : List (Machine ρ)} {request : Request}
    (blind : ¬ request.AccessesMemory)
    (apart : Apart rest (machine.startsOf request ++ ahead) machine other) :
    (other.serve request).1 = (machine.serve request).1 ∧
      Apart rest ahead (machine.serve request).2 (other.serve request).2 := by
  have ran (running) := tracks_apart.serve running apart
  obtain ⟨cells, ⟨memory, same, rfl⟩, further⟩ := apart
  have apart {after : Machine ρ} (kept : after.memory = machine.memory)
      (further : Hidden cells ahead ∧ ∀ address, cells address →
        (∀ start ∈ ahead, ¬ start.Overwrites address) → rest address) :
      Apart rest ahead after { after with memory } :=
    ⟨cells, ⟨memory, kept ▸ same, rfl⟩, further⟩
  cases request with
  | step => exact ran (Or.inl rfl)
  | execute cycles period => exact ran (Or.inr (Or.inr ⟨cycles, period, rfl⟩))
  | tick => exact ran (Or.inr (Or.inl rfl))
  | setKey key pressed => exact change_related (apart rfl further) fun _ => apart rfl further
  | push value => exact change_related (apart rfl further) fun _ => apart rfl further
  | pop => exact change_related (apart rfl further) fun _ => apart rfl further
  | read8 | read16 | readBlock | write8 | write16 | writeBlock | loadRom | draw =>
      exact absurd trivial blind
  | _ => exact ⟨rfl, apart rfl further⟩

/-- What a step does depends on memory only through the cells that it reads. Where two machines
    differ in other cells, it has the same outcome in both, and they differ afterwards in those of
    the cells that it has not written. Where throughout a run no step reads one of these cells before
    an earlier one has overwritten it, all requests get the same replies and in the end the machines
    differ in nothing but the cells that no step has overwritten. -/
theorem read_footprint (machine other : Machine ρ) (cells : Address → Prop)
    (differ : DifferIn cells machine other) :
    ((∀ address, machine.Reads address → ¬ cells address) →
      other.step.1 = machine.step.1 ∧
        DifferIn (fun address => cells address ∧ ¬ machine.Overwrites address)
          machine.step.2 other.step.2) ∧
      ∀ requests : List Request, (∀ request ∈ requests, ¬ request.AccessesMemory) →
        Hidden cells (machine.starts requests) →
          (other.session requests).1 = (machine.session requests).1 ∧
            DifferIn
              (fun address => cells address ∧
                ∀ start ∈ machine.starts requests, ¬ start.Overwrites address)
              (machine.session requests).2 (other.session requests).2 := by
  refine ⟨differ.step, fun requests blind hidden => ?_⟩
  have apart : Apart
      (fun address => cells address ∧ ∀ start ∈ machine.starts requests, ¬ start.Overwrites address)
      (machine.starts requests) machine other :=
    ⟨cells, differ, hidden, fun _ inside unwritten => ⟨inside, unwritten⟩⟩
  obtain ⟨replies, remaining, final, _, left⟩ :=
    session_tracked (fun _ _ _ _ => serve_apart) blind apart
  exact ⟨replies, final.mono fun address inside => left address inside nofun⟩

/-- A step writes over the word that the next one executes. -/
theorem read_footprint_overwritten_word :
    ∃ machine : Machine ByteCycle,
      boot [0xF1, 0x55, 0xFF, 0xFF] {} { values := [] } = .ok machine ∧
        let storing := (machine.session [.assignIndex 0x202, .assignRegister 1 0xE0]).2
        let other := { storing with memory := storing.memory.put 0x202 [0x12, 0x34] }
        other.step.1 = storing.step.1 ∧
          (other.session [.step, .step]).1 = (storing.session [.step, .step]).1 ∧
            DifferIn (fun _ => False) (storing.session [.step, .step]).2
              (other.session [.step, .step]).2 := by
  obtain ⟨machine, booted, pc, index, stores⟩ : ∃ machine : Machine ByteCycle,
      boot [0xF1, 0x55, 0xFF, 0xFF] {} { values := [] } = .ok machine ∧
        let storing := (machine.session [.assignIndex 0x202, .assignRegister 1 0xE0]).2
        storing.pc.toNat = 0x200 ∧ storing.index.toNat = 0x202 ∧
          storing.step.1 = .ok (some (.register .store 1)) := ⟨_, rfl, by decide +kernel⟩
  refine ⟨machine, booted, ?_⟩
  generalize (machine.session [.assignIndex 0x202, .assignRegister 1 0xE0]).2 = storing at *
  let word (address : Address) := 0x202 ≤ address.val ∧ address.val ≤ 0x203
  have differ : DifferIn word storing
      { storing with memory := storing.memory.put 0x202 [0x12, 0x34] } := by
    refine ⟨_, fun address apart => Memory.cell_put_frame ?_, rfl⟩
    simp only [word, List.length_cons, List.length_nil] at apart ⊢
    omega
  have unread (address) (read : storing.Reads address) : ¬ word address := by
    obtain ⟨_, _, here | next | ⟨x, y, n, drawn, _⟩ | ⟨x, loaded, _⟩⟩ := read
    · simp only [word]
      omega
    · simp only [word]
      omega
    · cases stores.symm.trans drawn
    · cases stores.symm.trans loaded
  have overwritten (address) (inside : word address) : storing.Overwrites address := by
    rw [Overwrites, stores]
    change storing.index.toNat ≤ address.val ∧ address.val ≤ storing.index.toNat + 1
    rw [index]
    exact inside
  have hidden : Hidden word (storing.starts [.step, .step]) := by
    intro earlier start later split address read inside
    cases earlier with
    | nil =>
        obtain ⟨rfl, _⟩ := List.cons.inj split
        exact absurd inside (unread address read)
    | cons first rest =>
        obtain ⟨rfl, _⟩ := List.cons.inj split
        exact ⟨storing, List.mem_cons_self, overwritten address inside⟩
  have footprint := read_footprint storing _ word differ
  obtain ⟨replies, final⟩ := footprint.2 [.step, .step] (by simp [Request.AccessesMemory]) hidden
  refine ⟨(footprint.1 unread).1, replies, final.mono fun address remaining => ?_⟩
  exact remaining.2 storing List.mem_cons_self (overwritten address remaining.1)

end Run

end Machine

end Chip8
