import Chip8.Proofs.Machine.Calls
import Chip8.Proofs.Machine.Flow

namespace Chip8.Machine

/-! What a step may change, whether it succeeds or fails, and where it goes on. -/

variable {ρ : Type} {machine : Machine ρ} {x : Register} {part : Part}

/-- The parts that a step with this outcome may change. -/
def Changes (machine : Machine ρ) (outcome : Except Fault (Option Instruction)) (part : Part) :
    Prop :=
  match outcome with
  | .ok (some instruction) => machine.Writes instruction part
  | .ok none =>
      ∃ x key, machine.waiting = some x ∧ machine.keypad.isPressed key = true ∧
        (part = .waiting ∨ part = .register x)
  | .error _ => part = .pc

theorem kept_polled (waiting : machine.waiting = some x)
    (free : ¬ machine.Changes (.ok none) part) : part.Kept machine (machine.pollKeypad x) := by
  cases first : machine.keypad.firstPressed with
  | none =>
      rw [pollKeypad, first]
      exact Part.kept_rfl
  | some key =>
      have pressed : machine.keypad.isPressed key = true := List.find?_some first
      refine kept_pollKeypad ⟨fun same => free ?_, fun same => free ?_⟩
      · exact ⟨x, key, waiting, pressed, Or.inl same⟩
      · exact ⟨x, key, waiting, pressed, Or.inr same⟩

section Step

variable [ByteSource ρ]

theorem kept_step (free : ¬ machine.Changes machine.step.1 part) :
    part.Kept machine machine.step.2 := by
  cases waiting : machine.waiting with
  | some x =>
      rw [step_waiting waiting] at free ⊢
      exact kept_polled waiting free
  | none =>
      cases fetched : machine.fetch with
      | error fault =>
          rw [step_unfetched waiting fetched]
          exact Part.kept_rfl
      | ok word =>
          cases executed : machine.advance.exec (Instruction.decode word.toNat) with
          | error fault =>
              rw [step_refused waiting fetched executed] at free ⊢
              exact kept_advance free
          | ok after =>
              rw [step_executed waiting fetched executed] at free ⊢
              have moved : part.Kept machine machine.advance :=
                kept_advance (ne_of_not_writes free trivial)
              exact moved.trans (kept_exec executed free)

/-- A step changes nothing but what its outcome allows: the parts that the instruction writes, the
    register that takes a key together with the end of the waiting, or the program counter where it
    fails. It draws a random byte for one instruction only, and where it succeeds it goes on at the
    instruction's destination. -/
theorem step_footprint (machine : Machine ρ) :
    (∀ part : Part, ¬ machine.Changes machine.step.1 part → part.Kept machine machine.step.2) ∧
      (∀ x byte, machine.step.1 = .ok (some (.immediate .random x byte)) →
        machine.step.2.random = (ByteSource.draw machine.random).2) ∧
        (∀ instruction, machine.step.1 = .ok (some instruction) →
          machine.step.2.pc.toNat = machine.destination instruction) ∧
          (machine.step.1 = .ok (some (.bare .ret)) →
            machine.stack.pop = .ok (machine.step.2.pc, machine.step.2.stack)) := by
  have whole {outcome : Except Fault (Option Instruction)} (result : machine.step.1 = outcome) :
      machine.step = (outcome, machine.step.2) := Prod.ext result rfl
  refine ⟨fun part free => kept_step free, ?_, ?_, fun result => stack_of_ret (whole result)⟩
  · intro x byte result
    obtain ⟨_, _, _, _, executed⟩ := step_eq_ok_some_iff.mp (whole result)
    generalize machine.step.2 = after at executed
    cases executed
    rfl
  · intro instruction result
    obtain ⟨_, _, fetched, _, executed⟩ := step_eq_ok_some_iff.mp (whole result)
    exact toNat_pc_exec fetched executed

/-- Two registers are stored in the last two cells of memory. -/
theorem step_footprint_last_cells :
    ∃ machine : Machine ByteCycle,
      boot [0xF1, 0x55] { incrementIndex := true } { values := [] } = .ok machine ∧
        let stored := (machine.session [.assignIndex 0xFFE, .assignRegister 0 7]).2
        stored.step.1 = .ok (some (.register .store 1)) ∧ stored.step.2.pc.toNat = 0x202 ∧
          ∀ part : Part, part ≠ .pc → part ≠ .index → part ≠ .cell 0xFFE → part ≠ .cell 0xFFF →
            part.Kept stored stored.step.2 := by
  obtain ⟨machine, booted, result, index, pc⟩ : ∃ machine : Machine ByteCycle,
      boot [0xF1, 0x55] { incrementIndex := true } { values := [] } = .ok machine ∧
        let stored := (machine.session [.assignIndex 0xFFE, .assignRegister 0 7]).2
        stored.step.1 = .ok (some (.register .store 1)) ∧ stored.index.toNat = 0xFFE ∧
          stored.destination (.register .store 1) = 0x202 := ⟨_, rfl, by decide +kernel⟩
  refine ⟨machine, booted, result, ?_, fun part counter moved last final => ?_⟩
  · rw [← pc]
    exact (step_footprint _).2.2.1 _ result
  · refine (step_footprint _).1 part fun changed => ?_
    rw [result] at changed
    cases part with
    | pc => exact counter rfl
    | index => exact moved rfl
    | cell address =>
        obtain ⟨lower, upper⟩ : 0xFFE ≤ address.val ∧ address.val ≤ 0xFFE + 1 := by
          rw [← index]
          exact changed
        have place : address.val = 0xFFE ∨ address.val = 0xFFF := by omega
        rcases place with here | here
        · exact last (congrArg Part.cell (Fin.ext here))
        · exact final (congrArg Part.cell (Fin.ext here))
    | _ => exact changed

end Step

end Chip8.Machine
