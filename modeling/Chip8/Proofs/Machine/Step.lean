import Chip8.Machine.Host
import Chip8.Proofs.Outcome

namespace Chip8

/-! The courses that a step may take, and what it may fail for. -/

variable {fault : Fault}

theorem Memory.access_eq_error_iff {α : Type} {address width : Int} {result : α} :
    Memory.access address width result = .error fault ↔
      ¬ Memory.InRange address width ∧ fault = .memoryViolation address := by
  rw [Memory.access]
  by_cases range : Memory.InRange address width
  · simp [range]
  · simp [range, eq_comm]

theorem Memory.access_eq_ok_iff {α : Type} {address width : Int} {result value : α} :
    Memory.access address width result = .ok value ↔
      Memory.InRange address width ∧ value = result := by
  rw [Memory.access]
  by_cases range : Memory.InRange address width
  · simp [range, eq_comm]
  · simp [range]

theorem Fault.ofDepth_eq_or (depth : Int) :
    Fault.ofDepth depth = .stackOverflow depth ∨ Fault.ofDepth depth = .digitLimit := by
  rw [Fault.ofDepth]
  exact ite_eq_or_eq ..

/-- A full stack is never taken for a word that is no instruction. -/
theorem Fault.ofDepth_ne_invalidInstruction {depth word : Int} {address : UInt16} :
    Fault.invalidInstruction word address ≠ .ofDepth depth := by
  rcases Fault.ofDepth_eq_or depth with same | same
  · simp [same]
  · simp [same]

theorem CallStack.push_eq_error_iff {stack : CallStack} {address : UInt16} :
    stack.push address = .error fault ↔
      stack.depth ≤ stack.size ∧ fault = .ofDepth stack.depth := by
  rw [CallStack.push]
  by_cases full : stack.depth ≤ stack.size
  · simp [full, eq_comm]
  · simp [full]

theorem CallStack.pop_eq_error_iff {stack : CallStack} :
    stack.pop = .error fault ↔ stack.entries = [] ∧ fault = .stackUnderflow := by
  rw [CallStack.pop]
  cases stack.entries with
  | nil => simp [eq_comm]
  | cons address rest => simp

namespace Machine

variable {ρ : Type} {machine : Machine ρ} {x : Register} {word : UInt16}

/-- The bytes from the index on are not all in memory. -/
def Beyond (machine : Machine ρ) (width : Int) (fault : Fault) : Prop :=
  ¬ Memory.InRange machine.index.toNat width ∧ fault = .memoryViolation machine.index.toNat

/-- What an instruction is refused for, if it is one of the seven that may be. -/
def Refuses (machine : Machine ρ) (fault : Fault) : Instruction → Prop
  | .bare .ret => machine.stack.entries = [] ∧ fault = .stackUnderflow
  | .address .call _ =>
      machine.stack.depth ≤ machine.stack.size ∧ fault = .ofDepth machine.stack.depth
  | .draw _ _ n => machine.Beyond n.val fault
  | .register .digits _ => machine.Beyond 3 fault
  | .register .store x => machine.Beyond (x.val + 1 : Nat) fault
  | .register .load x => machine.Beyond (x.val + 1 : Nat) fault
  | .invalid word => fault = .invalidInstruction word (machine.pc - 2)
  | _ => False

theorem length_lowest (machine : Machine ρ) (x : Register) :
    (machine.registers.toList.take (x.val + 1)).length = x.val + 1 := by
  have bound := x.isLt
  rw [List.length_take, Vector.length_toList]
  omega

theorem execRegister_eq_error_iff {op : RegisterOp} :
    machine.execRegister x op = .error fault ↔ machine.Refuses fault (.register op x) := by
  cases op with
  | digits => exact bind_ok_eq_error_iff.trans Memory.access_eq_error_iff
  | store =>
      refine bind_ok_eq_error_iff.trans (Memory.access_eq_error_iff.trans ?_)
      rw [length_lowest]
      rfl
  | load => exact bind_ok_eq_error_iff.trans Memory.access_eq_error_iff
  | _ => simp [execRegister, Refuses]

theorem exec_eq_error_iff [ByteSource ρ] {instruction : Instruction} :
    machine.exec instruction = .error fault ↔ machine.Refuses fault instruction := by
  cases instruction with
  | bare op =>
      cases op with
      | clearScreen => simp [exec, execBare, Refuses]
      | ret => exact bind_ok_eq_error_iff.trans CallStack.pop_eq_error_iff
  | address op addr =>
      cases op with
      | call => exact bind_ok_eq_error_iff.trans CallStack.push_eq_error_iff
      | _ => simp [exec, execAddress, Refuses]
  | immediate op x byte => simp [exec, Refuses]
  | draw x y n =>
      exact bind_ok_eq_error_iff.trans (bind_ok_eq_error_iff.trans Memory.access_eq_error_iff)
  | pair op x y => simp [exec, Refuses]
  | register op x => exact execRegister_eq_error_iff
  | invalid word => simp [exec, Refuses, eq_comm]

/-! What a fetch says about the program counter. -/

theorem fetch_inside (fetched : machine.fetch = .ok word) : machine.pc.toNat ≤ 0xFFE := by
  rw [fetch, Memory.read16, Memory.access_eq_ok_iff] at fetched
  obtain ⟨_, inside⟩ := fetched.1
  omega

theorem toNat_advance (fetched : machine.fetch = .ok word) :
    machine.advance.pc.toNat = machine.pc.toNat + 2 := by
  have inside := fetch_inside fetched
  simp only [advance, UInt16.toNat_add, UInt16.reduceToNat]
  omega

/-! The courses of a step. -/

section Step

variable [ByteSource ρ]

theorem step_waiting (waiting : machine.waiting = some x) :
    machine.step = (.ok none, machine.pollKeypad x) := by
  rw [step, waiting]

theorem step_unfetched (free : machine.waiting = none) (fetched : machine.fetch = .error fault) :
    machine.step = (.error fault, machine) := by
  rw [step, free, fetched]

theorem step_fetched (free : machine.waiting = none) (fetched : machine.fetch = .ok word) :
    machine.step =
      match machine.advance.exec (Instruction.decode word.toNat) with
      | .error fault => (.error fault, machine.advance)
      | .ok after => (.ok (some (Instruction.decode word.toNat)), after) := by
  rw [step, free]
  -- Under both matches at once the kernel would decode the word.
  generalize machine.fetch = outcome at fetched
  subst fetched
  rfl

theorem step_refused (free : machine.waiting = none) (fetched : machine.fetch = .ok word)
    (refused : machine.advance.exec (Instruction.decode word.toNat) = .error fault) :
    machine.step = (.error fault, machine.advance) := by
  rw [step_fetched free fetched, refused]

theorem step_executed {after : Machine ρ} (free : machine.waiting = none)
    (fetched : machine.fetch = .ok word)
    (executed : machine.advance.exec (Instruction.decode word.toNat) = .ok after) :
    machine.step = (.ok (some (Instruction.decode word.toNat)), after) := by
  rw [step_fetched free fetched, executed]

theorem step_eq_ok_some_iff {instruction : Instruction} {after : Machine ρ} :
    machine.step = (.ok (some instruction), after) ↔
      machine.waiting = none ∧ ∃ word, machine.fetch = .ok word ∧
        Instruction.decode word.toNat = instruction ∧
        machine.advance.exec instruction = .ok after := by
  cases waiting : machine.waiting with
  | some x => simp [step_waiting waiting]
  | none =>
      cases fetched : machine.fetch with
      | error cause => simp [step_unfetched waiting fetched]
      | ok word =>
          cases executed : machine.advance.exec (Instruction.decode word.toNat) with
          | error cause =>
              rw [step_refused waiting fetched executed]
              simp only [Prod.mk.injEq, reduceCtorEq, false_and, true_and, Except.ok.injEq,
                exists_eq_left', false_iff, not_and]
              rintro rfl
              simp [executed]
          | ok final =>
              rw [step_executed waiting fetched executed]
              simp only [Prod.mk.injEq, Except.ok.injEq, Option.some.injEq, true_and,
                exists_eq_left']
              refine and_congr_right fun same => ?_
              rw [← same, executed, Except.ok.injEq]

/-- What every course of a step leads to. -/
theorem step_leads (Led : Machine ρ → Prop)
    (polled : ∀ x, machine.waiting = some x → Led (machine.pollKeypad x))
    (unfetched : ∀ fault, machine.fetch = .error fault → Led machine)
    (refused : ∀ word, machine.fetch = .ok word → Led machine.advance)
    (executed : ∀ word after, machine.fetch = .ok word →
      machine.advance.exec (Instruction.decode word.toNat) = .ok after → Led after) :
    Led machine.step.2 := by
  cases waiting : machine.waiting with
  | some x =>
      rw [step_waiting waiting]
      exact polled x waiting
  | none =>
      cases fetched : machine.fetch with
      | error cause =>
          rw [step_unfetched waiting fetched]
          exact unfetched cause fetched
      | ok word =>
          cases outcome : machine.advance.exec (Instruction.decode word.toNat) with
          | error cause =>
              rw [step_refused waiting fetched outcome]
              exact refused word fetched
          | ok after =>
              rw [step_executed waiting fetched outcome]
              exact executed word after fetched outcome

/-- A step fails while fetching, which leaves the machine as it is, or because the instruction is
    refused, which leaves it past the instruction. -/
theorem step_eq_error_iff {after : Machine ρ} :
    machine.step = (.error fault, after) ↔
      machine.waiting = none ∧
        (machine.fetch = .error fault ∧ after = machine ∨
          ∃ word, machine.fetch = .ok word ∧
            machine.advance.Refuses fault (Instruction.decode word.toNat) ∧
            after = machine.advance) := by
  cases waiting : machine.waiting with
  | some x => simp [step_waiting waiting]
  | none =>
      cases fetched : machine.fetch with
      | error cause => simp [step_unfetched waiting fetched, eq_comm]
      | ok word =>
          cases executed : machine.advance.exec (Instruction.decode word.toNat) with
          | error cause =>
              rw [step_refused waiting fetched executed]
              simp [← exec_eq_error_iff, executed, eq_comm]
          | ok final =>
              rw [step_executed waiting fetched executed]
              simp [← exec_eq_error_iff, executed]

end Step

end Machine

end Chip8
