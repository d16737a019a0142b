import Chip8.Proofs.Instruction.Decoding
import Chip8.Proofs.Plain.Mirror

namespace Chip8.Plain

/-! The ranges hold throughout every session, and within them a step fails for no other reason than
    the machine's own faults. -/

variable {ρ : Type}

/-- All parts keep their ranges and the stack keeps the depth it was booted with, whatever is asked
    of the machine and whatever of it is refused. The sessions are those of the machine itself. -/
theorem session_inRange [ByteSource ρ] {rom : List UInt8} {settings : Settings} {random : ρ}
    {start : Plain ρ} (booted : boot rom settings random = .ok start) (requests : List Request) :
    (session start requests).2.InRange ∧
      ((session start requests).2.stack.length : Int) ≤ max 0 settings.stackDepth ∧
      ∃ machine, Machine.boot rom settings random = .ok machine ∧
        session start requests =
          ((machine.session requests).1, (machine.session requests).2.plain) := by
  rw [boot_plain] at booted
  have mapped := of_mapError_eq_ok booted
  cases typed : Machine.boot rom settings random with
  | error fault =>
      rw [typed] at mapped
      cases mapped
  | ok machine =>
      rw [typed] at mapped
      cases mapped
      have within := Machine.session_keeps
        (fun machine request => Machine.within_serve machine request) machine requests
        (Machine.within_boot typed)
      rw [session_plain]
      refine ⟨inRange_plain _, ?_, machine, rfl, rfl⟩
      dsimp only
      rw [length_stack]
      exact within.bounded

/-- A program that calls itself fills its stack, and the host goes on asking. -/
theorem session_inRange_recursion :
    ∃ start : Plain ByteCycle,
      boot [0x22, 0x00] { stackDepth := 1 } { values := [] } = .ok start ∧
        (session start [.step, .step, .push 0x12345, .write8 (-1) 0x300, .tick]).2.InRange := by
  have booted : boot [0x22, 0x00] { stackDepth := 1 } ({ values := [] } : ByteCycle) = .ok _ := rfl
  exact ⟨_, booted, (session_inRange booted _).1⟩

/-- The word at the program counter, high byte first. -/
def word (machine : Plain ρ) : Int :=
  0x100 * machine.cells.getD machine.pc.toNat 0 + machine.cells.getD (machine.pc.toNat + 1) 0

def Fetches (machine : Plain ρ) (instruction : Instruction) : Prop :=
  machine.pc ≤ 0xFFE ∧ Instruction.decode machine.word = instruction

/-- What stops a machine that awaits no key. -/
inductive Fails (machine : Plain ρ) : Fault → Prop
  | fetch (past : 0xFFE < machine.pc) : Fails machine (.memoryViolation machine.pc)
  | invalid {word : Int} (fetched : machine.Fetches (.invalid word)) :
      Fails machine (.invalidInstruction machine.word (UInt16.ofInt machine.pc))
  | ret (fetched : machine.Fetches (.bare .ret)) (empty : machine.stack = []) :
      Fails machine .stackUnderflow
  | call {addr : Address} (fetched : machine.Fetches (.address .call addr))
      (full : machine.depth ≤ machine.stack.length) (told : Numeral.Writable machine.depth) :
      Fails machine (.stackOverflow machine.depth)
  | untold {addr : Address} (fetched : machine.Fetches (.address .call addr))
      (full : machine.depth ≤ machine.stack.length) (long : ¬ Numeral.Writable machine.depth) :
      Fails machine .digitLimit
  | draw {x y : Register} {n : Nibble} (fetched : machine.Fetches (.draw x y n))
      (past : 4096 < machine.index + n.val) : Fails machine (.memoryViolation machine.index)
  | digits {x : Register} (fetched : machine.Fetches (.register .digits x))
      (past : 4096 < machine.index + 3) : Fails machine (.memoryViolation machine.index)
  | store {x : Register} (fetched : machine.Fetches (.register .store x))
      (past : 4096 < machine.index + x.val + 1) : Fails machine (.memoryViolation machine.index)
  | load {x : Register} (fetched : machine.Fetches (.register .load x))
      (past : 4096 < machine.index + x.val + 1) : Fails machine (.memoryViolation machine.index)

theorem Fails.fetches {machine : Plain ρ} {fault : Fault} (failed : machine.Fails fault) :
    machine.pc ≤ 0xFFE ∨ fault = .memoryViolation machine.pc := by
  cases failed with
  | fetch past => exact Or.inr rfl
  | invalid fetched => exact Or.inl fetched.1
  | ret fetched empty => exact Or.inl fetched.1
  | call fetched full told => exact Or.inl fetched.1
  | untold fetched full long => exact Or.inl fetched.1
  | draw fetched past => exact Or.inl fetched.1
  | digits fetched past => exact Or.inl fetched.1
  | store fetched past => exact Or.inl fetched.1
  | load fetched past => exact Or.inl fetched.1

section Typed

variable {machine : Machine ρ} {fault : Fault}

theorem fetch_eq_error_iff :
    machine.fetch = .error fault ↔
      0xFFE < machine.plain.pc ∧ fault = .memoryViolation machine.plain.pc := by
  have outside : ¬ Memory.InRange machine.pc.toNat 2 ↔ 0xFFE < machine.plain.pc := by
    simp only [Memory.InRange, Machine.plain]
    omega
  rw [Machine.fetch, Memory.read16, Memory.access_eq_error_iff, outside]
  rfl

theorem getD_cells {place : Nat} (inside : place < 4096) :
    machine.plain.cells.getD place 0 = (machine.memory.cell (.ofInt place)).toNat := by
  have bound : place < machine.plain.cells.length := by
    rw [length_cells]
    exact inside
  rw [List.getD_eq_getElem _ _ bound, getElem_cells]

theorem word_of_fetch {fetched : UInt16} (found : machine.fetch = .ok fetched) :
    machine.plain.pc ≤ 0xFFE ∧ machine.plain.word = fetched.toNat := by
  rw [Machine.fetch, Memory.read16, Memory.access] at found
  split at found
  · next range =>
      simp only [Memory.InRange] at range
      have first := (machine.memory.cell (.ofInt machine.pc.toNat)).toNat_lt
      have second := (machine.memory.cell (.ofInt ((machine.pc.toNat : Int) + 1))).toNat_lt
      have inside : (machine.pc.toNat : Int) ≤ 0xFFE := by omega
      cases found
      refine ⟨inside, ?_⟩
      rw [word, show machine.plain.pc.toNat = machine.pc.toNat from rfl, getD_cells (by omega),
        getD_cells (by omega), UInt16.toNat_ofNat',
        show ((machine.pc.toNat + 1 : Nat) : Int) = machine.pc.toNat + 1 from rfl]
      omega
  · cases found

theorem plain_advance (inside : machine.plain.pc ≤ 0xFFE) :
    machine.advance.plain = { machine.plain with pc := machine.plain.pc + 2 } := by
  have moved := add_address machine.pc 2
  have short : (machine.pc.toNat : Int) ≤ 0xFFE := inside
  have next : ((machine.pc + 2).toNat : Int) = machine.pc.toNat + 2 := by
    rw [← moved]
    change ((machine.pc.toNat : Int) + 2) % 0x10000 = _
    omega
  change { machine.plain with pc := ((machine.pc + 2).toNat : Int) } = _
  rw [next]
  rfl

theorem beyond_iff {width : Int} :
    machine.Beyond width fault ↔
      4096 < machine.plain.index + width ∧ fault = .memoryViolation machine.plain.index := by
  have outside : ¬ Memory.InRange machine.index.toNat width ↔
      4096 < machine.plain.index + width := by
    simp only [Memory.InRange, Machine.plain]
    omega
  rw [Machine.Beyond, outside]
  rfl

theorem fetched_invalid {value : Int} (fetched : machine.plain.Fetches (.invalid value)) :
    value = machine.plain.word :=
  Instruction.word_of_decode_invalid fetched.2

theorem advance_pc : machine.advance.pc - 2 = UInt16.ofInt machine.plain.pc := by
  rw [show machine.plain.pc = machine.pc.toNat from rfl, ofInt_address]
  exact UInt16.add_sub_cancel machine.pc 2

theorem stack_eq_nil_iff : machine.plain.stack = [] ↔ machine.stack.entries = [] := by
  simp [Machine.plain, ofAddresses]

theorem full_iff :
    machine.plain.depth ≤ machine.plain.stack.length ↔
      machine.stack.depth ≤ machine.stack.size := by
  rw [length_stack]
  rfl

theorem fails_of_refuses {instruction : Instruction} (fetched : machine.plain.Fetches instruction)
    (refused : machine.advance.Refuses fault instruction) : machine.plain.Fails fault := by
  cases instruction with
  | bare op =>
      cases op with
      | clearScreen => exact refused.elim
      | ret =>
          obtain ⟨empty, rfl⟩ := refused
          exact .ret fetched (stack_eq_nil_iff.mpr empty)
  | address op addr =>
      cases op with
      | call =>
          obtain ⟨full, rfl⟩ := refused
          rw [Fault.ofDepth]
          split
          · next told => exact .call fetched (full_iff.mpr full) told
          · next long => exact .untold fetched (full_iff.mpr full) long
      | _ => exact refused.elim
  | immediate op x byte => exact refused.elim
  | draw x y n =>
      obtain ⟨past, rfl⟩ := beyond_iff.mp refused
      exact .draw fetched past
  | pair op x y => exact refused.elim
  | register op x =>
      cases op with
      | digits =>
          obtain ⟨past, rfl⟩ := beyond_iff.mp refused
          exact .digits fetched past
      | store =>
          obtain ⟨past, rfl⟩ := beyond_iff.mp refused
          exact .store fetched (Int.add_assoc .. ▸ past)
      | load =>
          obtain ⟨past, rfl⟩ := beyond_iff.mp refused
          exact .load fetched (Int.add_assoc .. ▸ past)
      | _ => exact refused.elim
  | invalid value =>
      obtain rfl := refused
      rw [advance_pc, fetched_invalid fetched]
      exact .invalid fetched

theorem refuses_of_fails (failed : machine.plain.Fails fault) (inside : machine.plain.pc ≤ 0xFFE) :
    machine.advance.Refuses fault (Instruction.decode machine.plain.word) := by
  cases failed with
  | fetch past => exact absurd past (Int.not_lt.mpr inside)
  | invalid fetched =>
      rw [fetched.2, ← fetched_invalid fetched, ← advance_pc]
      rfl
  | ret fetched empty =>
      rw [fetched.2]
      exact ⟨stack_eq_nil_iff.mp empty, rfl⟩
  | call fetched full told =>
      rw [fetched.2]
      exact ⟨full_iff.mp full, (if_pos told).symm⟩
  | untold fetched full long =>
      rw [fetched.2]
      exact ⟨full_iff.mp full, (if_neg long).symm⟩
  | draw fetched past =>
      rw [fetched.2]
      exact beyond_iff.mpr ⟨past, rfl⟩
  | digits fetched past =>
      rw [fetched.2]
      exact beyond_iff.mpr ⟨past, rfl⟩
  | store fetched past =>
      rw [fetched.2]
      rw [Int.add_assoc] at past
      exact beyond_iff.mpr ⟨past, rfl⟩
  | load fetched past =>
      rw [fetched.2]
      rw [Int.add_assoc] at past
      exact beyond_iff.mpr ⟨past, rfl⟩

theorem fails_iff :
    machine.plain.Fails fault ↔
      machine.fetch = .error fault ∨
        ∃ word, machine.fetch = .ok word ∧
          machine.advance.Refuses fault (Instruction.decode word.toNat) := by
  cases fetch : machine.fetch with
  | error cause =>
      obtain ⟨past, rfl⟩ := fetch_eq_error_iff.mp fetch
      refine ⟨fun failed => ?_, fun stopped => ?_⟩
      · have same := failed.fetches.resolve_left (Int.not_le.mpr past)
        exact Or.inl (congrArg Except.error same.symm)
      · rcases stopped with same | ⟨word, found, _⟩
        · cases same
          exact .fetch past
        · cases found
  | ok word =>
      obtain ⟨inside, same⟩ := word_of_fetch fetch
      refine ⟨fun failed => ?_, fun stopped => ?_⟩
      · have refused := refuses_of_fails failed inside
        rw [same] at refused
        exact Or.inr ⟨word, rfl, refused⟩
      · rcases stopped with found | ⟨_, found, refused⟩
        · cases found
        · cases found
          exact fails_of_refuses ⟨inside, congrArg Instruction.decode same⟩ refused

theorem step_eq_error_iff [ByteSource ρ] {after : Machine ρ} :
    machine.step = (.error fault, after) ↔
      machine.waiting = none ∧ machine.plain.Fails fault ∧
        after = if 0xFFE < machine.plain.pc then machine else machine.advance := by
  rw [Machine.step_eq_error_iff, fails_iff]
  apply and_congr_right
  intro _
  cases fetch : machine.fetch with
  | error cause =>
      have past := (fetch_eq_error_iff.mp fetch).1
      simp [past]
  | ok word =>
      have inside := Int.not_lt.mpr (word_of_fetch fetch).1
      simp [inside]

end Typed

theorem step_eq_error_iff_of_inRange [ByteSource ρ] {machine : Plain ρ} (range : machine.InRange)
    (refusal : Refusal) (after : Plain ρ) :
    step machine = (.error refusal, after) ↔
      machine.waiting = none ∧ (∃ fault, refusal = .fault fault ∧ machine.Fails fault) ∧
        after =
          if 0xFFE < machine.pc then machine else { machine with pc := machine.pc + 2 } := by
  obtain ⟨typed, rfl⟩ := range.exists_plain
  have free : typed.plain.waiting = none ↔ typed.waiting = none := Option.map_eq_none_iff
  have moved : (if 0xFFE < typed.plain.pc then typed else typed.advance).plain =
      if 0xFFE < typed.plain.pc then typed.plain else
        { typed.plain with pc := typed.plain.pc + 2 } := by
    by_cases past : 0xFFE < typed.plain.pc
    · rw [if_pos past, if_pos past]
    · rw [if_neg past, if_neg past, plain_advance (Int.not_lt.mp past)]
  rw [step_plain, free, ← moved]
  refine ⟨fun failed => ?_, fun stopped => ?_⟩
  · cases outcome : typed.step with
    | mk result final =>
        rw [outcome] at failed
        cases result with
        | ok executed => cases failed
        | error fault =>
            cases failed
            obtain ⟨waiting, fails, rfl⟩ := step_eq_error_iff.mp outcome
            exact ⟨waiting, ⟨fault, rfl, fails⟩, rfl⟩
  · obtain ⟨waiting, ⟨fault, rfl, fails⟩, rfl⟩ := stopped
    rw [step_eq_error_iff.mpr ⟨waiting, fails, rfl⟩]
    rfl

/-- A step fails exactly for the machine's own faults. Where it fails in the fetch the machine stays
    as it is, and otherwise only the program counter moves on. -/
theorem step_error [ByteSource ρ] {machine : Plain ρ} (range : machine.InRange) :
    (∀ refusal after, step machine = (.error refusal, after) ↔
      machine.waiting = none ∧ (∃ fault, refusal = .fault fault ∧ machine.Fails fault) ∧
        after = if 0xFFE < machine.pc then machine else { machine with pc := machine.pc + 2 }) ∧
      ∃ typed : Machine ρ, typed.plain = machine ∧
        step machine = (typed.step.1.mapError .fault, typed.step.2.plain) := by
  refine ⟨step_eq_error_iff_of_inRange range, ?_⟩
  obtain ⟨typed, rfl⟩ := range.exists_plain
  exact ⟨typed, rfl, step_plain typed⟩

/-- A machine that is about to call a subroutine, with nothing on its stack. -/
def calling (depth : Int) : Plain ByteCycle where
  pc := 0
  cells := 0x22 :: List.replicate 4095 0
  depth
  clip := true
  random := { values := [] }
  settings := {}

theorem inRange_calling (depth : Int) : (calling depth).InRange := by
  have zeros (count : Nat) :
      ∀ value ∈ List.replicate count (0 : Int), 0 ≤ value ∧ value ≤ 0xFF := by
    intro value member
    rw [List.eq_of_mem_replicate member]
    decide
  have zero (bound : Nat) : (0 : Int) ≤ 0 ∧ (0 : Int) ≤ bound :=
    ⟨Int.le_refl 0, Int.natCast_nonneg bound⟩
  exact {
    pc := zero 0xFFFF
    index := zero 0xFFFF
    registers := ⟨rfl, zeros 16⟩
    delay := zero 0xFF
    sound := zero 0xFF
    waiting := fun x found => nomatch found
    cells := ⟨congrArg (· + 1) List.length_replicate,
      List.forall_mem_cons.mpr ⟨by decide, zeros 4095⟩⟩
    stack := fun entry member => nomatch member
    rows := by
      refine ⟨rfl, fun row member => ?_⟩
      rw [List.eq_of_mem_replicate member]
      exact ⟨rfl, fun cell lit => Or.inl (List.eq_of_mem_replicate lit)⟩
    keys := rfl }

theorem fetches_calling (depth : Int) :
    (calling depth).Fetches (.address .call (.ofNat 0x200)) :=
  ⟨show (0 : Int) ≤ 0xFFE by decide, by rfl⟩

/-- A call on a machine whose stack is never to hold anything. -/
theorem step_error_full_stack :
    (calling 0).InRange ∧
      step (calling 0) = (.error (.fault (.stackOverflow 0)), { calling 0 with pc := 2 }) := by
  have range := inRange_calling 0
  have told : Numeral.Writable 0 := Nat.pow_pos (by decide)
  have fails : (calling 0).Fails (.stackOverflow 0) :=
    .call (fetches_calling 0) (Int.le_refl 0) told
  exact ⟨range, ((step_error range).1 _ _).mpr ⟨rfl, ⟨_, rfl, fails⟩, rfl⟩⟩

/-- The stack is as full for a depth below zero. One of too many digits cannot be told, so that no
    overflow is reported: the step fails all the same, but for the number. -/
theorem step_untold_depth :
    let machine := calling (-((Nat.pow 10 Numeral.digitLimit : Nat) : Int))
    machine.InRange ∧ machine.waiting = none ∧
      machine.Fetches (.address .call (.ofNat 0x200)) ∧ machine.depth ≤ machine.stack.length ∧
        step machine = (.error (.fault .digitLimit), { machine with pc := 2 }) := by
  intro machine
  have range : machine.InRange := inRange_calling _
  have fetched : machine.Fetches (.address .call (.ofNat 0x200)) := fetches_calling _
  have full : machine.depth ≤ machine.stack.length := Int.neg_nonpos_of_nonneg (Int.natCast_nonneg _)
  have long : ¬ Numeral.Writable machine.depth := by
    change ¬ (-((Nat.pow 10 Numeral.digitLimit : Nat) : Int)).natAbs < _
    rw [Int.natAbs_neg, Int.natAbs_natCast]
    exact Nat.lt_irrefl _
  exact ⟨range, rfl, fetched, full, (step_eq_error_iff_of_inRange range _ _).mpr
    ⟨rfl, ⟨_, rfl, .untold fetched full long⟩, rfl⟩⟩

end Chip8.Plain
