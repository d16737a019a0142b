import Chip8.Proofs.Machine.Session

namespace Chip8.Machine

/-! Two machines side by side: what is kept between them by single steps and ticks is kept by whole
    sessions, and so are the replies. -/

variable {ρ : Type}

/-- The machines that the steps of `executeFrom` start from. -/
def startsFrom [ByteSource ρ] (period : Int) (taken : Nat) : Nat → Machine ρ → List (Machine ρ)
  | 0, _ => []
  | left + 1, machine =>
      machine ::
        match machine.step with
        | (.error _, _) => []
        | (.ok _, after) =>
            let ticked := after.tickAfter period (taken + 1)
            if ticked.blocked then [] else startsFrom period (taken + 1) left ticked

theorem startsFrom_of_error [ByteSource ρ] {period : Int} {taken left : Nat}
    {machine : Machine ρ} {fault : Fault} (failed : machine.step.1 = .error fault) :
    startsFrom period taken (left + 1) machine = [machine] := by
  rw [startsFrom]
  cases stepped : machine.step with
  | mk outcome after =>
      rw [stepped] at failed
      cases failed
      rfl

theorem startsFrom_of_ok [ByteSource ρ] {period : Int} {taken left : Nat} {machine : Machine ρ}
    {executed : Option Instruction} (done : machine.step.1 = .ok executed) :
    let ticked := machine.step.2.tickAfter period (taken + 1)
    startsFrom period taken (left + 1) machine =
      machine :: if ticked.blocked then [] else startsFrom period (taken + 1) left ticked := by
  rw [startsFrom]
  cases stepped : machine.step with
  | mk outcome after =>
      rw [stepped] at done
      cases done
      rfl

/-- The machines that the steps within a request start from. -/
def startsOf [ByteSource ρ] (machine : Machine ρ) : Request → List (Machine ρ)
  | .step => [machine]
  | .execute cycles period => startsFrom period 0 cycles.toNat machine
  | _ => []

/-- The machines that the steps of a session start from. -/
def starts [ByteSource ρ] (machine : Machine ρ) : List Request → List (Machine ρ)
  | [] => []
  | request :: rest => machine.startsOf request ++ starts (machine.serve request).2 rest

/-- Whatever holds between two machines with certain steps ahead of the first holds between them
    after a tick, and after the first of these steps with the others ahead. The steps of the two have
    the same outcomes. -/
structure Tracks [ByteSource ρ] (Related : List (Machine ρ) → Machine ρ → Machine ρ → Prop) :
    Prop where
  blocked : ∀ {ahead machine other}, Related ahead machine other → other.blocked = machine.blocked
  ticked : ∀ {ahead machine other}, Related ahead machine other →
    Related ahead machine.tickTimers other.tickTimers
  stepped : ∀ {ahead machine other}, Related (machine :: ahead) machine other →
    other.step.1 = machine.step.1 ∧ Related ahead machine.step.2 other.step.2

/-- A request that is done by itself and alike on both sides keeps what its effect keeps. -/
theorem change_related {α : Type} {outcome : Except Refusal α} {reply : α → Reply}
    {effect beside : α → Machine ρ} {machine other : Machine ρ}
    {Near : Machine ρ → Machine ρ → Prop} (near : Near machine other)
    (kept : ∀ result, Near (effect result) (beside result)) :
    (other.change outcome reply beside).1 = (machine.change outcome reply effect).1 ∧
      Near (machine.change outcome reply effect).2 (other.change outcome reply beside).2 := by
  cases outcome with
  | error refusal => exact ⟨rfl, near⟩
  | ok result => exact ⟨rfl, kept result⟩

section Related

variable [ByteSource ρ] {machine other : Machine ρ} {ahead : List (Machine ρ)}
  {requests : List Request} {Related : List (Machine ρ) → Machine ρ → Machine ρ → Prop}

theorem Tracks.tickAfter (tracks : Tracks Related) (related : Related ahead machine other)
    (period : Int) (steps : Nat) :
    Related ahead (machine.tickAfter period steps) (other.tickAfter period steps) := by
  rw [Machine.tickAfter, Machine.tickAfter]
  split
  · exact tracks.ticked related
  · exact related

theorem Tracks.executeFrom (tracks : Tracks Related) {period : Int} {taken left : Nat}
    (related : Related (startsFrom period taken left machine ++ ahead) machine other) :
    (Machine.executeFrom period taken left other).1 =
        (Machine.executeFrom period taken left machine).1 ∧
      Related ahead (Machine.executeFrom period taken left machine).2
        (Machine.executeFrom period taken left other).2 := by
  induction left generalizing taken machine other with
  | zero => exact ⟨rfl, related⟩
  | succ left ih =>
      cases outcome : machine.step.1 with
      | error fault =>
          rw [startsFrom_of_error outcome] at related
          obtain ⟨same, next⟩ := tracks.stepped related
          rw [executeFrom_of_error outcome, executeFrom_of_error (same.trans outcome)]
          exact ⟨rfl, next⟩
      | ok executed =>
          rw [startsFrom_of_ok outcome] at related
          obtain ⟨same, next⟩ := tracks.stepped related
          have ticked := tracks.tickAfter next period (taken + 1)
          rw [executeFrom_of_ok outcome, executeFrom_of_ok (same.trans outcome),
            tracks.blocked ticked]
          cases blocked : (machine.step.2.tickAfter period (taken + 1)).blocked with
          | true =>
              rw [blocked] at ticked
              rw [if_pos rfl, if_pos rfl]
              exact ⟨rfl, ticked⟩
          | false =>
              rw [blocked] at ticked
              rw [if_neg Bool.false_ne_true, if_neg Bool.false_ne_true]
              exact ih ticked

theorem Tracks.execute (tracks : Tracks Related) {cycles period : Int}
    (related : Related (machine.startsOf (.execute cycles period) ++ ahead) machine other) :
    (other.execute cycles period).1 = (machine.execute cycles period).1 ∧
      Related ahead (machine.execute cycles period).2 (other.execute cycles period).2 := by
  rw [startsOf] at related
  rw [Machine.execute, Machine.execute]
  by_cases none : cycles ≤ 0
  · rw [Int.toNat_of_nonpos none] at related
    rw [if_pos none, if_pos none]
    exact ⟨rfl, related⟩
  · rw [if_neg none, if_neg none]
    obtain ⟨same, final⟩ := tracks.executeFrom related
    exact ⟨congrArg (Except.map Int.ofNat) same, final⟩

/-- Steps, alone and many at once, and ticks. -/
theorem Tracks.serve (tracks : Tracks Related) {request : Request}
    (running : request = .step ∨ request = .tick ∨
      ∃ cycles period, request = .execute cycles period)
    (related : Related (machine.startsOf request ++ ahead) machine other) :
    (other.serve request).1 = (machine.serve request).1 ∧
      Related ahead (machine.serve request).2 (other.serve request).2 := by
  rcases running with rfl | rfl | ⟨cycles, period, rfl⟩
  · obtain ⟨same, final⟩ := tracks.stepped related
    rw [Machine.serve, Machine.serve]
    exact ⟨congrArg (fun outcome => (outcome.map Reply.executed).mapError Refusal.fault) same, final⟩
  · exact ⟨rfl, tracks.ticked related⟩
  · obtain ⟨same, final⟩ := tracks.execute related
    rw [Machine.serve, Machine.serve]
    exact ⟨congrArg (fun outcome => (outcome.map Reply.number).mapError Refusal.fault) same, final⟩

/-- What every request keeps between two machines, together with what it keeps between its replies,
    is kept throughout a session. -/
theorem session_related (Kind : Request → Prop)
    (Alike : Except Refusal Reply → Except Refusal Reply → Prop)
    (Related : List (Machine ρ) → Machine ρ → Machine ρ → Prop)
    (served : ∀ ahead machine other request, Kind request →
      Related (machine.startsOf request ++ ahead) machine other →
        Alike (machine.serve request).1 (other.serve request).1 ∧
          Related ahead (machine.serve request).2 (other.serve request).2)
    (kinds : ∀ request ∈ requests, Kind request)
    (related : Related (machine.starts requests) machine other) :
    List.Forall₂ Alike (machine.session requests).1 (other.session requests).1 ∧
      Related [] (machine.session requests).2 (other.session requests).2 := by
  induction requests generalizing machine other with
  | nil => exact ⟨.nil, related⟩
  | cons request rest ih =>
      obtain ⟨kind, kinds⟩ := List.forall_mem_cons.mp kinds
      rw [starts] at related
      obtain ⟨alike, next⟩ := served _ machine other request kind related
      obtain ⟨replies, final⟩ := ih kinds next
      exact ⟨.cons alike replies, final⟩

/-- The same where the replies are equal. -/
theorem session_tracked {Kind : Request → Prop}
    (served : ∀ ahead machine other request, Kind request →
      Related (machine.startsOf request ++ ahead) machine other →
        (other.serve request).1 = (machine.serve request).1 ∧
          Related ahead (machine.serve request).2 (other.serve request).2)
    (kinds : ∀ request ∈ requests, Kind request)
    (related : Related (machine.starts requests) machine other) :
    (other.session requests).1 = (machine.session requests).1 ∧
      Related [] (machine.session requests).2 (other.session requests).2 := by
  obtain ⟨replies, final⟩ := session_related Kind Eq Related
    (fun ahead machine other request kind related => by
      obtain ⟨same, next⟩ := served ahead machine other request kind related
      exact ⟨same.symm, next⟩) kinds related
  rw [List.forall₂_eq_eq_eq] at replies
  exact ⟨replies.symm, final⟩

end Related

end Chip8.Machine
