import Chip8.Proofs.Machine.Frame

namespace Chip8

namespace CallStack

/-- The stack stays as it is, takes an address, or gives up its latest. -/
inductive Moves (stack : CallStack) : CallStack → Prop
  | stay : stack.Moves stack
  | push {address : UInt16} {after : CallStack} (pushed : stack.push address = .ok after) :
      stack.Moves after
  | pop {address : UInt16} {after : CallStack} (popped : stack.pop = .ok (address, after)) :
      stack.Moves after

/-- A stack that was given this depth and never grew beyond it. -/
structure Within (stack : CallStack) (depth : Int) : Prop where
  fixed : stack.depth = depth
  bounded : (stack.size : Int) ≤ max 0 depth

variable {stack after : CallStack} {depth : Int} {address : UInt16}

theorem push_eq_ok_iff :
    stack.push address = .ok after ↔
      stack.size < stack.depth ∧ after = { stack with entries := address :: stack.entries } := by
  rw [push]
  by_cases full : stack.depth ≤ stack.size
  · simp [full, Int.not_lt.mpr full]
  · simp [full, Int.not_le.mp full, eq_comm]

theorem pop_eq_ok_iff :
    stack.pop = .ok (address, after) ↔
      stack.entries = address :: after.entries ∧ after.depth = stack.depth := by
  obtain ⟨depth, entries⟩ := stack
  obtain ⟨fixed, further⟩ := after
  cases entries with
  | nil => simp [pop]
  | cons latest rest =>
      constructor
      · intro popped
        cases popped
        exact ⟨rfl, rfl⟩
      · intro split
        obtain ⟨stored, rfl⟩ := split
        cases stored
        rfl

theorem Within.moves (within : stack.Within depth) (moved : stack.Moves after) :
    after.Within depth := by
  have bound := within.bounded
  have fixed := within.fixed
  cases moved with
  | stay => exact within
  | push pushed =>
      obtain ⟨room, rfl⟩ := push_eq_ok_iff.mp pushed
      refine ⟨fixed, ?_⟩
      simp only [size, List.length_cons] at room ⊢
      omega
  | pop popped =>
      obtain ⟨stored, same⟩ := pop_eq_ok_iff.mp popped
      refine ⟨same.trans fixed, ?_⟩
      simp only [size, stored, List.length_cons] at bound ⊢
      omega

end CallStack

/-- All but a request for many steps at once, within which the stack may fall and rise again. -/
def Request.single : Request → Bool
  | .execute _ _ => false
  | _ => true

namespace Machine

/-! A session serves requests one after the other and goes on after those that are refused. -/

variable {ρ : Type}

/-- The replies to some requests and the machine after them. -/
def session [ByteSource ρ] (machine : Machine ρ) :
    List Request → List (Except Refusal Reply) × Machine ρ
  | [] => ([], machine)
  | request :: rest =>
      let (reply, after) := machine.serve request
      let (replies, final) := session after rest
      (reply :: replies, final)

theorem session_cons [ByteSource ρ] (machine : Machine ρ) (request : Request)
    (rest : List Request) :
    machine.session (request :: rest) =
      ((machine.serve request).1 :: ((machine.serve request).2.session rest).1,
        ((machine.serve request).2.session rest).2) := rfl

theorem session_append [ByteSource ρ] (machine : Machine ρ) (requests more : List Request) :
    (machine.session (requests ++ more)).2 = ((machine.session requests).2.session more).2 := by
  induction requests generalizing machine with
  | nil => rfl
  | cons request rest ih => exact ih _

/-- What every request of a kind keeps holds throughout a session of that kind. -/
theorem session_keeps_of [ByteSource ρ] {Kind : Request → Prop} {Kept : Machine ρ → Prop}
    (kept : ∀ machine request, Kind request → Kept machine → Kept (machine.serve request).2)
    (machine : Machine ρ) (requests : List Request) (alike : ∀ request ∈ requests, Kind request)
    (first : Kept machine) : Kept (machine.session requests).2 := by
  induction requests generalizing machine with
  | nil => exact first
  | cons request rest ih =>
      obtain ⟨here, further⟩ := List.forall_mem_cons.mp alike
      exact ih _ further (kept machine request here first)

/-- What every request keeps holds throughout a session. -/
theorem session_keeps [ByteSource ρ] {Kept : Machine ρ → Prop}
    (kept : ∀ machine request, Kept machine → Kept (machine.serve request).2)
    (machine : Machine ρ) (requests : List Request) (first : Kept machine) :
    Kept (machine.session requests).2 :=
  session_keeps_of (fun machine request (_ : True) => kept machine request) machine requests
    (fun _ _ => trivial) first

/-- A step and the tick that may follow it. -/
theorem tickAfter_course [ByteSource ρ] (period : Int) (taken : Nat) (machine : Machine ρ) :
    ∃ moments : List Request, (∀ moment ∈ moments, moment = .step ∨ moment = .tick) ∧
      (machine.session moments).2 = machine.step.2.tickAfter period taken := by
  rw [tickAfter]
  split
  · exact ⟨[.step, .tick], by simp, rfl⟩
  · exact ⟨[.step], by simp, rfl⟩

theorem executeFrom_of_error [ByteSource ρ] {period : Int} {taken left : Nat} {machine : Machine ρ}
    {fault : Fault} (failed : machine.step.1 = .error fault) :
    executeFrom period taken (left + 1) machine = (.error fault, machine.step.2) := by
  rw [executeFrom]
  cases stepped : machine.step with
  | mk outcome after =>
      rw [stepped] at failed
      cases failed
      rfl

theorem executeFrom_of_ok [ByteSource ρ] {period : Int} {taken left : Nat} {machine : Machine ρ}
    {executed : Option Instruction} (done : machine.step.1 = .ok executed) :
    let ticked := machine.step.2.tickAfter period (taken + 1)
    executeFrom period taken (left + 1) machine =
      if ticked.blocked then (.ok (taken + 1), ticked)
      else executeFrom period (taken + 1) left ticked := by
  rw [executeFrom]
  cases stepped : machine.step with
  | mk outcome after =>
      rw [stepped] at done
      cases done
      rfl

/-- Runs of many steps come down to single steps and ticks. They end after some of them, or with a
    further step that fails. -/
theorem executeFrom_course [ByteSource ρ] (period : Int) (taken left : Nat)
    (machine : Machine ρ) :
    ∃ moments : List Request, (∀ moment ∈ moments, moment = .step ∨ moment = .tick) ∧
      ((∃ count, executeFrom period taken left machine =
          (.ok count, (machine.session moments).2)) ∨
        ∃ fault after, (machine.session moments).2.step = (.error fault, after) ∧
          executeFrom period taken left machine = (.error fault, after)) := by
  induction left generalizing taken machine with
  | zero => exact ⟨[], nofun, Or.inl ⟨taken, rfl⟩⟩
  | succ left ih =>
      obtain ⟨first, single, same⟩ := machine.tickAfter_course period (taken + 1)
      cases outcome : machine.step.1 with
      | error fault =>
          rw [executeFrom_of_error outcome]
          exact ⟨[], nofun, Or.inr ⟨fault, machine.step.2, Prod.ext outcome rfl, rfl⟩⟩
      | ok instruction =>
          rw [executeFrom_of_ok outcome, ← same]
          cases (machine.session first).2.blocked with
          | true => exact ⟨first, single, Or.inl ⟨taken + 1, rfl⟩⟩
          | false =>
              obtain ⟨rest, further, ends⟩ := ih (taken + 1) (machine.session first).2
              refine ⟨first ++ rest, ?_, ?_⟩
              · intro moment member
                exact (List.mem_append.mp member).elim (single moment) (further moment)
              · rw [session_append]
                exact ends

theorem execute_course [ByteSource ρ] (cycles period : Int) (machine : Machine ρ) :
    ∃ moments : List Request, (∀ moment ∈ moments, moment = .step ∨ moment = .tick) ∧
      ((∃ count, machine.execute cycles period = (.ok count, (machine.session moments).2)) ∨
        ∃ fault after, (machine.session moments).2.step = (.error fault, after) ∧
          machine.execute cycles period = (.error fault, after)) := by
  rw [execute]
  split
  · exact ⟨[], nofun, Or.inl ⟨cycles, rfl⟩⟩
  · obtain ⟨moments, single, ends⟩ := executeFrom_course period 0 cycles.toNat machine
    refine ⟨moments, single, ?_⟩
    rcases ends with ⟨count, done⟩ | ⟨fault, after, failed, done⟩
    · exact Or.inl ⟨count, by rw [done]; rfl⟩
    · exact Or.inr ⟨fault, after, failed, by rw [done]; rfl⟩

theorem execute_keeps [ByteSource ρ] (Kept : Machine ρ → Prop)
    (stepped : ∀ machine, Kept machine → Kept machine.step.2)
    (ticked : ∀ machine, Kept machine → Kept machine.tickTimers) (cycles period : Int)
    (machine : Machine ρ) (first : Kept machine) : Kept (machine.execute cycles period).2 := by
  obtain ⟨moments, single, ends⟩ := machine.execute_course cycles period
  have kept (machine : Machine ρ) (moment : Request) (single : moment = .step ∨ moment = .tick)
      (held : Kept machine) : Kept (machine.serve moment).2 := by
    rcases single with rfl | rfl
    · exact stepped machine held
    · exact ticked machine held
  have reached := session_keeps_of kept machine moments single first
  rcases ends with ⟨count, done⟩ | ⟨fault, after, failed, done⟩
  · rw [done]
    exact reached
  · have further := stepped _ reached
    rw [failed] at further
    rw [done]
    exact further

/-! The stack, which only calls and returns and the host itself change. -/

section Stack

variable {machine after : Machine ρ} {depth : Int}

/-- A call pushes the program counter, a return pops into it, and no other instruction changes the
    stack. -/
theorem stack_exec [ByteSource ρ] {instruction : Instruction}
    (done : machine.exec instruction = .ok after) :
    (∃ addr, instruction = .address .call addr ∧
        machine.stack.push machine.pc = .ok after.stack) ∨
      instruction = .bare .ret ∧ machine.stack.pop = .ok (after.pc, after.stack) ∨
        after.stack = machine.stack := by
  have kept (free : ¬ machine.Writes instruction .stack) : after.stack = machine.stack :=
    (kept_exec done free : Part.stack.Kept machine after)
  cases instruction with
  | bare op =>
      cases op with
      | clearScreen => exact Or.inr (Or.inr (kept nofun))
      | ret =>
          obtain ⟨⟨address, stack⟩, popped, done⟩ := bind_eq_ok_iff.mp done
          cases done
          exact Or.inr (Or.inl ⟨rfl, popped⟩)
  | address op addr =>
      cases op with
      | call =>
          obtain ⟨stack, pushed, done⟩ := bind_eq_ok_iff.mp done
          cases done
          exact Or.inl ⟨addr, rfl, pushed⟩
      | _ => exact Or.inr (Or.inr (kept nofun))
  | _ => exact Or.inr (Or.inr (kept nofun))

theorem step_moves [ByteSource ρ] (machine : Machine ρ) :
    machine.stack.Moves machine.step.2.stack := by
  refine step_leads (fun after => machine.stack.Moves after.stack) (fun x _ => ?_)
    (fun _ _ => .stay) (fun _ _ => .stay) ?_
  · have kept : (machine.pollKeypad x).stack = machine.stack :=
      (kept_pollKeypad ⟨nofun, nofun⟩ : Part.stack.Kept machine (machine.pollKeypad x))
    rw [kept]
    exact .stay
  · intro word after _ executed
    rcases stack_exec executed with ⟨_, _, pushed⟩ | ⟨_, popped⟩ | same
    · exact .push pushed
    · exact .pop popped
    · rw [same]
      exact .stay

theorem change_keeps (Kept : Machine ρ → Prop) {α : Type} {outcome : Except Refusal α}
    {reply : α → Reply} {effect : α → Machine ρ} (first : Kept machine)
    (kept : ∀ result, outcome = .ok result → Kept (effect result)) :
    Kept (machine.change outcome reply effect).2 := by
  cases outcome with
  | error refusal => exact first
  | ok result => exact kept result rfl

theorem change_moves {α : Type} {outcome : Except Refusal α} {reply : α → Reply}
    {effect : α → Machine ρ}
    (moved : ∀ result, outcome = .ok result → machine.stack.Moves (effect result).stack) :
    machine.stack.Moves (machine.change outcome reply effect).2.stack :=
  change_keeps (fun after => machine.stack.Moves after.stack) .stay moved

theorem serve_moves [ByteSource ρ] (machine : Machine ρ) {request : Request}
    (single : request.single) :
    machine.stack.Moves (machine.serve request).2.stack := by
  cases request with
  | step => exact step_moves machine
  | execute cycles period => cases single
  | push value => exact change_moves fun _ pushed => .push (of_mapError_eq_ok pushed)
  | pop => exact change_moves fun _ popped => .pop (of_mapError_eq_ok popped)
  | setKey key pressed => exact change_moves fun _ _ => .stay
  | write8 address value => exact change_moves fun _ _ => .stay
  | write16 address value => exact change_moves fun _ _ => .stay
  | writeBlock address bytes => exact change_moves fun _ _ => .stay
  | loadRom rom => exact change_moves fun _ _ => .stay
  | draw index size x y => exact change_moves fun _ _ => .stay
  | _ => exact .stay

theorem within_serve [ByteSource ρ] (machine : Machine ρ) (request : Request)
    (within : machine.stack.Within depth) :
    (machine.serve request).2.stack.Within depth := by
  cases request with
  | execute cycles period =>
      exact execute_keeps (fun machine => machine.stack.Within depth)
        (fun machine held => held.moves machine.step_moves) (fun _ held => held) cycles period
        machine
        within
  | _ => exact within.moves (serve_moves machine rfl)

theorem within_boot {rom : List UInt8} {settings : Settings} {random : ρ}
    (booted : boot rom settings random = .ok machine) :
    machine.stack.Within settings.stackDepth := by
  obtain ⟨memory, _, booted⟩ := bind_eq_ok_iff.mp booted
  cases booted
  exact ⟨rfl, Int.le_max_left 0 _⟩

end Stack

end Machine

end Chip8
