import Chip8.Proofs.Machine.Session

namespace Chip8

namespace CallStack

/-- The first stack is what the second has at its bottom. -/
structure Under (base stack : CallStack) : Prop where
  depth : stack.depth = base.depth
  entries : base.entries <:+ stack.entries

variable {base stack after : CallStack}

theorem Under.moves (under : base.Under stack) (moved : stack.Moves after)
    (high : base.size ≤ after.size) : base.Under after := by
  obtain ⟨depth, entries⟩ := under
  cases moved with
  | stay => exact ⟨depth, entries⟩
  | push pushed =>
      obtain ⟨_, rfl⟩ := push_eq_ok_iff.mp pushed
      exact ⟨depth, entries.trans (List.suffix_cons _ _)⟩
  | pop popped =>
      obtain ⟨stored, same⟩ := pop_eq_ok_iff.mp popped
      refine ⟨same.trans depth, ?_⟩
      rw [stored] at entries
      refine (List.suffix_cons_iff.mp entries).resolve_left fun whole => ?_
      -- Were the entry that is given up the base's own, the stack would fall below the base.
      simp only [size, whole, List.length_cons] at high
      omega

theorem Under.eq_of_size (under : base.Under stack) (level : stack.size = base.size) :
    stack = base := by
  obtain ⟨depth, entries⟩ := under
  have same := entries.eq_of_length level.symm
  cases stack
  cases base
  cases depth
  cases same
  rfl

end CallStack

namespace Machine

/-! A call and the return that belongs to it. -/

variable {ρ : Type} [ByteSource ρ] {machine called returned : Machine ρ} {addr : Address}
  {base : CallStack} {requests : List Request}

theorem session_under
    (single : ∀ request ∈ requests, request.single)
    (first : base.Under machine.stack)
    (high : ∀ before, before <+: requests →
      base.size ≤ (machine.session before).2.stack.size) :
    base.Under (machine.session requests).2.stack := by
  induction requests generalizing machine with
  | nil => exact first
  | cons request rest ih =>
      obtain ⟨here, further⟩ := List.forall_mem_cons.mp single
      have next := first.moves (machine.serve_moves here) (high [request] ⟨rest, rfl⟩)
      refine ih further next fun before begun => ?_
      exact high (request :: before) (List.cons_prefix_cons.mpr ⟨rfl, begun⟩)

theorem stack_of_call (call : machine.step = (.ok (some (.address .call addr)), called)) :
    ∃ next, next.toNat = machine.pc.toNat + 2 ∧ machine.stack.push next = .ok called.stack := by
  obtain ⟨_, word, fetched, _, executed⟩ := step_eq_ok_some_iff.mp call
  obtain ⟨stack, pushed, done⟩ := bind_eq_ok_iff.mp executed
  cases done
  exact ⟨machine.advance.pc, toNat_advance fetched, pushed⟩

theorem stack_of_ret (ret : machine.step = (.ok (some (.bare .ret)), returned)) :
    machine.stack.pop = .ok (returned.pc, returned.stack) := by
  obtain ⟨_, word, fetched, _, executed⟩ := step_eq_ok_some_iff.mp ret
  obtain ⟨⟨address, stack⟩, popped, done⟩ := bind_eq_ok_iff.mp executed
  cases done
  exact popped

/-- Whatever is done after a call while the stack is higher than before it, the return that brings
    the stack back to its old size goes on after the call and leaves the old stack. -/
theorem call_returns (call : machine.step = (.ok (some (.address .call addr)), called))
    (single : ∀ request ∈ requests, request.single)
    (above : ∀ before, before <+: requests →
      machine.stack.size < (called.session before).2.stack.size)
    (ret : (called.session requests).2.step = (.ok (some (.bare .ret)), returned))
    (back : returned.stack.size = machine.stack.size) :
    returned.pc.toNat = machine.pc.toNat + 2 ∧ returned.stack = machine.stack := by
  obtain ⟨next, place, pushed⟩ := stack_of_call call
  obtain ⟨_, framed⟩ := CallStack.push_eq_ok_iff.mp pushed
  have height : called.stack.size = machine.stack.size + 1 := by
    rw [framed]
    rfl
  have under : called.stack.Under (called.session requests).2.stack := by
    refine session_under single ⟨rfl, List.suffix_refl _⟩ fun before begun => ?_
    have higher := above before begun
    omega
  have popped := stack_of_ret ret
  have stored := (CallStack.pop_eq_ok_iff.mp popped).1
  have level : (called.session requests).2.stack.size = called.stack.size := by
    rw [height, ← back, CallStack.size, stored]
    rfl
  rw [under.eq_of_size level, framed] at popped
  obtain ⟨same, left⟩ := Prod.mk.inj (Except.ok.inj popped)
  rw [← same]
  exact ⟨place, left.symm⟩

/-- In between the program calls and returns once more, and fails at a word that is no
    instruction. -/
theorem call_returns_nested :
    ∃ machine called returned : Machine ByteCycle,
      boot [0x22, 0x06, 0, 0, 0, 0, 0x22, 0x0A, 0x00, 0xEE, 0, 0, 0x00, 0xEE] {} { values := [] } =
          .ok machine ∧
        machine.step = (.ok (some (.address .call 0x206)), called) ∧
          (called.session [.step, .tick, .step, .setKey 3 true, .step]).2.step =
              (.ok (some (.bare .ret)), returned) ∧
            returned.pc.toNat = machine.pc.toNat + 2 ∧ returned.stack = machine.stack := by
  let requests : List Request := [.step, .tick, .step, .setKey 3 true, .step]
  obtain ⟨machine, booted, call, above, ret, back⟩ : ∃ machine : Machine ByteCycle,
      boot [0x22, 0x06, 0, 0, 0, 0, 0x22, 0x0A, 0x00, 0xEE, 0, 0, 0x00, 0xEE] {} { values := [] } =
          .ok machine ∧
        machine.step.1 = .ok (some (.address .call 0x206)) ∧
          (∀ count < 6,
            machine.stack.size < (machine.step.2.session (requests.take count)).2.stack.size) ∧
            (machine.step.2.session requests).2.step.1 = .ok (some (.bare .ret)) ∧
              (machine.step.2.session requests).2.step.2.stack.size = machine.stack.size :=
    ⟨_, rfl, by decide +kernel⟩
  have called : machine.step = (.ok (some (.address .call 0x206)), machine.step.2) :=
    Prod.ext call rfl
  have returned : (machine.step.2.session requests).2.step =
      (.ok (some (.bare .ret)), (machine.step.2.session requests).2.step.2) := Prod.ext ret rfl
  refine ⟨machine, _, _, booted, called, returned, ?_⟩
  refine call_returns called (by decide) (fun before begun => ?_) returned back
  rw [List.prefix_iff_eq_take.mp begun]
  exact above before.length (Nat.lt_succ_of_le begun.length_le)

end Machine

end Chip8
