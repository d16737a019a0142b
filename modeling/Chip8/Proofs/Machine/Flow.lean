import Chip8.Proofs.Instruction.Decoding
import Chip8.Proofs.Machine.Session

namespace Chip8

/-- The host neither sets the program counter itself nor puts an address on the stack. -/
def Request.leavesFlow : Request → Bool
  | .assignPc _ => false
  | .push _ => false
  | _ => true

namespace Machine

/-! Where execution goes on, in numbers that never wrap, and how far it can get from the start of a
    program. -/

variable {ρ : Type}

/-- Whether an instruction passes over the one behind it. -/
def skips (machine : Machine ρ) : Instruction → Bool
  | .immediate .skipEqual x byte => machine.register x == byte
  | .immediate .skipUnequal x byte => machine.register x != byte
  | .pair .skipEqual x y => machine.register x == machine.register y
  | .pair .skipUnequal x y => machine.register x != machine.register y
  | .register .skipPressed x => machine.keypad.isPressed (.ofNat (machine.register x).toNat)
  | .register .skipReleased x => !machine.keypad.isPressed (.ofNat (machine.register x).toNat)
  | _ => false

/-- The address after an instruction at the program counter. -/
def destination (machine : Machine ρ) (instruction : Instruction) : Nat :=
  match instruction with
  | .bare .ret => (machine.stack.entries.headD 0).toNat
  | .address .jump addr => addr.val
  | .address .call addr => addr.val
  | .address .jumpOffset addr => (machine.register (.ofNat 0)).toNat + addr.val
  | _ => machine.pc.toNat + if machine.skips instruction then 4 else 2

variable {machine after : Machine ρ} {word : UInt16} {instruction : Instruction}

theorem toNat_address (addr : Address) : (UInt16.ofNat addr.val).toNat = addr.val := by
  have bound := addr.isLt
  rw [UInt16.toNat_ofNat']
  omega

theorem toNat_skipIf (fetched : machine.fetch = .ok word) (condition : Bool) :
    (machine.advance.skipIf condition).pc.toNat =
      machine.pc.toNat + if condition then 4 else 2 := by
  have inside := fetch_inside fetched
  have next := toNat_advance fetched
  cases condition with
  | false => exact next
  | true =>
      simp only [skipIf, if_true, UInt16.toNat_add, UInt16.reduceToNat, next]
      omega

section Exec

variable [ByteSource ρ]

theorem toNat_pc_exec (fetched : machine.fetch = .ok word)
    (done : machine.advance.exec instruction = .ok after) :
    after.pc.toNat = machine.destination instruction := by
  have next := toNat_advance fetched
  cases instruction with
  | bare op =>
      cases op with
      | clearScreen =>
          cases done
          exact next
      | ret =>
          obtain ⟨⟨address, stack⟩, popped, done⟩ := bind_eq_ok_iff.mp done
          cases done
          have stored : machine.stack.entries = address :: stack.entries :=
            (CallStack.pop_eq_ok_iff.mp popped).1
          simp only [destination, stored, List.headD_cons]
  | address op addr =>
      cases op with
      | jump =>
          cases done
          exact toNat_address addr
      | call =>
          obtain ⟨stack, _, done⟩ := bind_eq_ok_iff.mp done
          cases done
          exact toNat_address addr
      | loadIndex =>
          cases done
          exact next
      | jumpOffset =>
          cases done
          have offset := (machine.register (.ofNat 0)).toNat_lt
          have bound := addr.isLt
          simp only [destination, UInt16.toNat_add, UInt8.toNat_toUInt16, toNat_address]
          change ((machine.register (.ofNat 0)).toNat + addr.val) % 2 ^ 16 = _
          omega
  | immediate op x byte =>
      cases done
      cases op with
      | skipEqual => exact toNat_skipIf fetched _
      | skipUnequal => exact toNat_skipIf fetched _
      | _ => exact next
  | draw x y n =>
      obtain ⟨drawn, _, done⟩ := bind_eq_ok_iff.mp done
      cases done
      exact next
  | pair op x y =>
      cases done
      cases op with
      | skipEqual => exact toNat_skipIf fetched _
      | skipUnequal => exact toNat_skipIf fetched _
      | _ => exact next
  | register op x =>
      cases op with
      | skipPressed =>
          cases done
          exact toNat_skipIf fetched _
      | skipReleased =>
          cases done
          exact toNat_skipIf fetched _
      | digits =>
          obtain ⟨memory, _, done⟩ := bind_eq_ok_iff.mp done
          cases done
          exact next
      | store =>
          obtain ⟨memory, _, done⟩ := bind_eq_ok_iff.mp done
          cases done
          exact next
      | load =>
          obtain ⟨bytes, _, done⟩ := bind_eq_ok_iff.mp done
          cases done
          exact next
      | _ =>
          cases done
          exact next
  | invalid word => cases done

end Exec

/-- The furthest jump leads past the last address by what a register holds. Return addresses stand
    behind an instruction in memory. -/
structure Bounded (machine : Machine ρ) : Prop where
  pc : machine.pc.toNat ≤ 0x10FE
  stack : ∀ entry ∈ machine.stack.entries, 2 ≤ entry.toNat ∧ entry.toNat ≤ 0x1000

theorem Bounded.destination_le (bounded : machine.Bounded) (inside : machine.pc.toNat ≤ 0xFFE)
    (instruction : Instruction) : machine.destination instruction ≤ 0x10FE := by
  unfold destination
  split
  · cases stored : machine.stack.entries with
    | nil => exact Nat.zero_le _
    | cons address rest =>
        have range := bounded.stack address (by simp [stored])
        rw [List.headD_cons]
        omega
  · omega
  · omega
  · have offset := (machine.register (.ofNat 0)).toNat_lt
    omega
  · split <;> omega

theorem bounded_boot {rom : List UInt8} {settings : Settings} {random : ρ}
    (booted : boot rom settings random = .ok machine) : machine.Bounded := by
  obtain ⟨memory, _, booted⟩ := bind_eq_ok_iff.mp booted
  cases booted
  have start : (0x200 : UInt16).toNat ≤ 0x10FE := by decide
  exact ⟨start, nofun⟩

section Run

variable [ByteSource ρ]

theorem Bounded.exec (bounded : machine.Bounded) (fetched : machine.fetch = .ok word)
    (done : machine.advance.exec instruction = .ok after) : after.Bounded := by
  have inside := fetch_inside fetched
  refine ⟨?_, ?_⟩
  · rw [toNat_pc_exec fetched done]
    exact bounded.destination_le inside instruction
  · rcases stack_exec done with ⟨_, _, pushed⟩ | ⟨_, popped⟩ | same
    · obtain ⟨_, stored⟩ := CallStack.push_eq_ok_iff.mp pushed
      have next := toNat_advance fetched
      rw [stored]
      refine List.forall_mem_cons.mpr ⟨?_, bounded.stack⟩
      omega
    · have stored := (CallStack.pop_eq_ok_iff.mp popped).1
      have range := bounded.stack
      change ∀ entry ∈ machine.advance.stack.entries, _ at range
      rw [stored] at range
      exact (List.forall_mem_cons.mp range).2
    · rw [same]
      exact bounded.stack

theorem Bounded.step (bounded : machine.Bounded) : machine.step.2.Bounded := by
  refine step_leads Bounded (fun x _ => ?_) (fun _ _ => bounded) (fun word fetched => ?_) ?_
  · rw [pollKeypad]
    split
    · exact ⟨bounded.pc, bounded.stack⟩
    · exact bounded
  · have inside := fetch_inside fetched
    have next := toNat_advance fetched
    exact ⟨by omega, bounded.stack⟩
  · intro word after fetched executed
    exact bounded.exec fetched executed

theorem Bounded.serve {request : Request} (bounded : machine.Bounded) (free : request.leavesFlow) :
    (machine.serve request).2.Bounded := by
  have kept {state : Machine ρ} (pc : state.pc = machine.pc) (stack : state.stack = machine.stack) :
      state.Bounded := by
    obtain ⟨low, range⟩ := bounded
    exact ⟨pc ▸ low, stack ▸ range⟩
  cases request with
  | step => exact bounded.step
  | execute cycles period =>
      exact execute_keeps Bounded (fun _ held => held.step) (fun _ held => ⟨held.pc, held.stack⟩)
        cycles period machine bounded
  | assignPc value => cases free
  | push value => cases free
  | pop =>
      refine change_keeps Bounded bounded fun popped done => ⟨bounded.pc, fun entry member => ?_⟩
      have stored := (CallStack.pop_eq_ok_iff.mp (of_mapError_eq_ok done)).1
      exact bounded.stack entry (by rw [stored]; exact List.mem_cons_of_mem _ member)
  | setKey key pressed => exact change_keeps Bounded bounded fun _ _ => kept rfl rfl
  | write8 address value => exact change_keeps Bounded bounded fun _ _ => kept rfl rfl
  | write16 address value => exact change_keeps Bounded bounded fun _ _ => kept rfl rfl
  | writeBlock address bytes => exact change_keeps Bounded bounded fun _ _ => kept rfl rfl
  | loadRom rom => exact change_keeps Bounded bounded fun _ _ => kept rfl rfl
  | draw index size x y => exact change_keeps Bounded bounded fun _ _ => kept rfl rfl
  | _ => exact kept rfl rfl

end Run

/-! Words that are no instruction. -/

section Invalid

variable {value : Int} {address : UInt16} {fault : Fault}

theorem refuses_invalid
    (refused : machine.Refuses (.invalidInstruction value address) instruction) :
    instruction = .invalid value ∧ address = machine.pc - 2 := by
  cases instruction with
  | bare op =>
      cases op with
      | clearScreen => exact refused.elim
      | ret => cases refused.2
  | address op addr =>
      cases op with
      | call => exact absurd refused.2 Fault.ofDepth_ne_invalidInstruction
      | _ => exact refused.elim
  | immediate op x byte => exact refused.elim
  | draw x y n => cases refused.2
  | pair op x y => exact refused.elim
  | register op x =>
      cases op with
      | digits => cases refused.2
      | store => cases refused.2
      | load => cases refused.2
      | _ => exact refused.elim
  | invalid word =>
      cases refused
      exact ⟨rfl, rfl⟩

theorem reply_change {α : Type} {outcome : Except Refusal α} {reply : α → Reply}
    {effect : α → Machine ρ} : (machine.change outcome reply effect).1 = outcome.map reply := by
  cases outcome <;> rfl

theorem refusal_of_reply {α ε : Type} {outcome : Except ε α} {wrap : ε → Refusal}
    {reply : α → Reply} {refusal : Refusal}
    (refused : (outcome.mapError wrap).map reply = .error refusal) :
    ∃ cause, outcome = .error cause ∧ wrap cause = refusal := by
  cases outcome with
  | error cause => exact ⟨cause, rfl, Except.error.inj refused⟩
  | ok result => cases refused

theorem fault_of_reply {α : Type} {outcome : Except Fault α} {reply : α → Reply}
    (refused : (outcome.mapError Refusal.fault).map reply = .error (.fault fault)) :
    outcome = .error fault := by
  obtain ⟨cause, failed, same⟩ := refusal_of_reply refused
  cases same
  exact failed

theorem fault_of_change {α : Type} {outcome : Except Fault α} {reply : α → Reply}
    {effect : α → Machine ρ}
    (refused : (machine.change (outcome.mapError .fault) reply effect).1 = .error (.fault fault)) :
    outcome = .error fault :=
  fault_of_reply (reply_change.symm.trans refused)

variable [ByteSource ρ]

theorem step_invalid (failed : machine.step = (.error (.invalidInstruction value address), after)) :
    machine.pc = address ∧ after = machine.advance ∧
      ∃ word, machine.fetch = .ok word ∧ value = word.toNat := by
  obtain ⟨_, course⟩ := step_eq_error_iff.mp failed
  rcases course with ⟨unfetched, _⟩ | ⟨word, fetched, refused, rfl⟩
  · rw [fetch, Memory.read16, Memory.access_eq_error_iff] at unfetched
    cases unfetched.2
  · obtain ⟨unknown, rfl⟩ := refuses_invalid refused
    refine ⟨(UInt16.add_sub_cancel machine.pc 2).symm, rfl, word, fetched, ?_⟩
    exact Instruction.word_of_decode_invalid unknown

/-- Only a step is refused for such a word, on its own or as one of many. -/
theorem serve_invalid {request : Request}
    (refused : (machine.serve request).1 = .error (.fault (.invalidInstruction value address))) :
    ∃ moments : List Request, (∀ moment ∈ moments, moment = .step ∨ moment = .tick) ∧
      (machine.session moments).2.step =
        (.error (.invalidInstruction value address), (machine.serve request).2) := by
  cases request with
  | step =>
      refine ⟨[], nofun, ?_⟩
      change (machine.step.1.map Reply.executed).mapError Refusal.fault = _ at refused
      change machine.step = (_, machine.step.2)
      generalize machine.step = stepped at refused ⊢
      obtain ⟨outcome, after⟩ := stepped
      cases outcome with
      | error fault =>
          cases refused
          rfl
      | ok executed => cases refused
  | execute cycles period =>
      obtain ⟨moments, alike, ends⟩ := machine.execute_course cycles period
      change ((machine.execute cycles period).1.map Reply.number).mapError Refusal.fault = _
        at refused
      rcases ends with ⟨count, done⟩ | ⟨fault, after, failed, done⟩
      · rw [done] at refused
        cases refused
      · rw [done] at refused
        cases refused
        refine ⟨moments, alike, ?_⟩
        change (machine.session moments).2.step = (_, (machine.execute cycles period).2)
        rw [failed, done]
  | read8 at_ => cases (Memory.access_eq_error_iff.mp (fault_of_reply refused)).2
  | read16 at_ => cases (Memory.access_eq_error_iff.mp (fault_of_reply refused)).2
  | write8 at_ value => cases (Memory.access_eq_error_iff.mp (fault_of_change refused)).2
  | write16 at_ value => cases (Memory.access_eq_error_iff.mp (fault_of_change refused)).2
  | readBlock at_ size => cases (Memory.access_eq_error_iff.mp (fault_of_reply refused)).2
  | writeBlock at_ bytes => cases (Memory.access_eq_error_iff.mp (fault_of_change refused)).2
  | push value =>
      exact absurd (CallStack.push_eq_error_iff.mp (fault_of_change refused)).2
        Fault.ofDepth_ne_invalidInstruction
  | pop => cases (CallStack.pop_eq_error_iff.mp (fault_of_change refused)).2
  | loadRom rom =>
      have failed := fault_of_change refused
      rw [Memory.loadRom] at failed
      split at failed <;> cases failed
  | draw index size x y =>
      have failed := bind_ok_eq_error_iff.mp (fault_of_change refused)
      cases (Memory.access_eq_error_iff.mp failed).2
  | setKey key pressed =>
      obtain ⟨_, _, same⟩ := refusal_of_reply (reply_change.symm.trans refused)
      cases same
  | keyPressed key =>
      obtain ⟨_, _, same⟩ := refusal_of_reply refused
      cases same
  | toRgba on off =>
      obtain ⟨_, _, same⟩ := refusal_of_reply refused
      cases same
  | _ => cases refused

end Invalid

variable [ByteSource ρ]

theorem pc_of_step_error {fault : Fault} (failed : machine.step = (.error fault, after)) :
    after.pc.toNat = machine.pc.toNat + if machine.pc.toNat ≤ 0xFFE then 2 else 0 := by
  obtain ⟨_, course⟩ := step_eq_error_iff.mp failed
  rcases course with ⟨unfetched, rfl⟩ | ⟨word, fetched, _, rfl⟩
  · rw [fetch, Memory.read16, Memory.access_eq_error_iff, Memory.InRange] at unfetched
    have outside := unfetched.1
    rw [if_neg (by omega), Nat.add_zero]
  · rw [if_pos (fetch_inside fetched), toNat_advance fetched]

/-- From the start of a program on the program counter and the return addresses stay in bounds.
    No step wraps the program counter, and a word that is no instruction is reported with the
    address that it was fetched from. -/
theorem session_flow {rom : List UInt8} {settings : Settings} {random : ρ} {requests : List Request}
    (booted : boot rom settings random = .ok machine)
    (free : ∀ request ∈ requests, request.leavesFlow) :
    let reached := (machine.session requests).2
    reached.Bounded ∧
      (∀ instruction after, reached.step = (.ok (some instruction), after) →
        after.pc.toNat = reached.destination instruction) ∧
      (∀ fault after, reached.step = (.error fault, after) →
        after.pc.toNat = reached.pc.toNat + if reached.pc.toNat ≤ 0xFFE then 2 else 0) ∧
      ∀ request value address,
        (reached.serve request).1 = .error (.fault (.invalidInstruction value address)) →
          ∃ moments : List Request, (∀ moment ∈ moments, moment = .step ∨ moment = .tick) ∧
            let stopped := (reached.session moments).2
            stopped.pc = address ∧ (reached.serve request).2 = stopped.advance ∧
              ∃ word, stopped.fetch = .ok word ∧ value = word.toNat := by
  refine ⟨?_, fun instruction after executed => ?_, fun fault after failed => ?_,
    fun request value address refused => ?_⟩
  · exact session_keeps_of (fun _ _ free bounded => bounded.serve free) machine requests free
      (bounded_boot booted)
  · obtain ⟨_, word, fetched, _, done⟩ := step_eq_ok_some_iff.mp executed
    exact toNat_pc_exec fetched done
  · exact pc_of_step_error failed
  · obtain ⟨moments, alike, failed⟩ := serve_invalid refused
    exact ⟨moments, alike, step_invalid failed⟩

/-- After a word that is no instruction comes the furthest of all jumps. -/
theorem session_flow_furthest :
    ∃ machine : Machine ByteCycle,
      boot [0x00, 0x00, 0x60, 0xFF, 0xBF, 0xFF] {} { values := [] } = .ok machine ∧
        let reached := (machine.session [.step, .tick, .write8 0x300 1, .changeSettings {},
          .execute 5 1]).2
        reached.Bounded ∧ reached.pc = 0x10FE ∧ reached.step.1 = .error (.memoryViolation 0x10FE) := by
  obtain ⟨machine, booted, place, failed⟩ : ∃ machine : Machine ByteCycle,
      boot [0x00, 0x00, 0x60, 0xFF, 0xBF, 0xFF] {} { values := [] } = .ok machine ∧
        let reached := (machine.session [.step, .tick, .write8 0x300 1, .changeSettings {},
          .execute 5 1]).2
        reached.pc = 0x10FE ∧ reached.step.1 = .error (.memoryViolation 0x10FE) :=
    ⟨_, rfl, by decide +kernel⟩
  exact ⟨machine, booted, (session_flow booted (by decide)).1, place, failed⟩

end Machine

end Chip8
