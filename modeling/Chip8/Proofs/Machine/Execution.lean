import Chip8.Proofs.Machine.Footprint
import Chip8.Proofs.Machine.Interleaving
import Chip8.Proofs.Machine.Tracking

namespace Chip8

/-- One of the two timers. -/
inductive Timer
  | delay
  | sound
  deriving DecidableEq, Repr

namespace Timer

variable {ρ : Type} {machine after : Machine ρ}

def setter : Timer → RegisterOp
  | delay => .setDelay
  | sound => .setSound

def part : Timer → Part
  | delay => .delay
  | sound => .sound

def read (machine : Machine ρ) : Timer → UInt8
  | delay => machine.delay
  | sound => machine.sound

theorem read_of_kept {timer : Timer} (kept : timer.part.Kept machine after) :
    timer.read after = timer.read machine := by
  cases timer <;> exact kept

theorem read_countDown (timer : Timer) (ticks : Nat) :
    (timer.read (machine.countDown ticks)).toNat = (timer.read machine).toNat - ticks := by
  cases timer <;> exact Machine.toNat_countDown _ ticks

/-- Among all that a step may do only its setter changes a timer. -/
theorem set_of_changes {timer : Timer} {outcome : Except Fault (Option Instruction)}
    (changed : machine.Changes outcome timer.part) :
    ∃ x, outcome = .ok (some (.register timer.setter x)) := by
  cases outcome with
  | error fault => cases timer <;> cases changed
  | ok executed =>
      cases executed with
      | none =>
          obtain ⟨x, key, _, _, same⟩ := changed
          cases timer <;> simp [part] at same
      | some instruction =>
          cases instruction with
          | register op x =>
              cases timer <;> cases op <;> first | exact ⟨x, rfl⟩ | cases changed
          | _ => cases timer <;> cases changed

end Timer

namespace Machine

/-! Runs of many steps: how many they take, when the timers tick, and where a run may be cut in
    two. -/

variable {ρ : Type} {machine middle after : Machine ρ} {period : Int} {taken left : Nat}
  {fault : Fault}

/-- Whole periods that have passed leave the later ticks where they are. -/
theorem ticksAfter_add (aligned : period = 0 ∨ period ∣ taken) (steps : Nat) :
    ticksAfter period (taken + steps) = ticksAfter period steps := by
  rcases aligned with rfl | divides
  · rfl
  · obtain ⟨rounds, whole⟩ := divides
    rw [ticksAfter, ticksAfter, Nat.cast_add, whole, Int.mul_add_emod_self_left]

/-- Some steps and the ticks that are due after them, where `taken` steps were made before. -/
def beats (period : Int) (taken : Nat) : Nat → List Request
  | 0 => []
  | steps + 1 =>
      if ticksAfter period (taken + 1) then .step :: .tick :: beats period (taken + 1) steps
      else .step :: beats period (taken + 1) steps

theorem count_step_beats (steps : Nat) : (beats period taken steps).count .step = steps := by
  induction steps generalizing taken with
  | zero => rfl
  | succ steps ih =>
      rw [beats]
      split <;> simp [ih]

theorem count_tick_beats (period : Int) (taken steps : Nat) :
    taken / period.natAbs + (beats period taken steps).count .tick =
      (taken + steps) / period.natAbs := by
  induction steps generalizing taken with
  | zero => rfl
  | succ steps ih =>
      have next : (taken + 1) / period.natAbs =
          taken / period.natAbs + if period.natAbs ∣ taken + 1 then 1 else 0 := Nat.succ_div
      rw [← Nat.add_assoc, Nat.add_right_comm, ← ih, next, beats, ticksAfter_succ]
      by_cases due : period.natAbs ∣ taken + 1
      · simp only [due, decide_true, if_true, List.count_cons, beq_iff_eq, reduceCtorEq, if_false]
        omega
      · simp [due]

theorem running_beats {steps : Nat} :
    ∀ request ∈ beats period taken steps, request = .step ∨ request = .tick := by
  induction steps generalizing taken with
  | zero => nofun
  | succ steps ih =>
      rw [beats]
      split <;> simpa using ih

section Step

variable [ByteSource ρ]

theorem session_beats (steps : Nat) :
    let ticked := machine.step.2.tickAfter period (taken + 1)
    (machine.session (beats period taken (steps + 1))).2 =
      (ticked.session (beats period (taken + 1) steps)).2 := by
  dsimp only
  rw [beats, tickAfter]
  split
  · rw [session_step, session_tick, tickTimers_eq_countDown]
  · rw [session_step]

theorem starts_beats (steps : Nat) :
    let ticked := machine.step.2.tickAfter period (taken + 1)
    machine.starts (beats period taken (steps + 1)) =
      machine :: ticked.starts (beats period (taken + 1) steps) := by
  dsimp only
  rw [beats, tickAfter]
  split
  · rfl
  · rfl

/-! Runs in which no step fails. -/

/-- So many steps are made and the ticks between them. Fewer than `left` of them end at a key that
    is waited for. -/
structure Completes (machine : Machine ρ) (period : Int) (taken left steps : Nat) : Prop where
  ends : executeFrom period taken left machine =
    (.ok (taken + steps), (machine.session (beats period taken steps)).2)
  starts : machine.starts (beats period taken steps) = startsFrom period taken left machine
  within : steps ≤ left
  begun : 0 < left → 0 < steps
  blocked : steps < left → (machine.session (beats period taken steps)).2.blocked = true

theorem completes
    (sound : ∀ start ∈ startsFrom period taken left machine, ∃ executed,
      start.step.1 = .ok executed) :
    machine.Completes period taken left (startsFrom period taken left machine).length := by
  induction left generalizing taken machine with
  | zero => exact ⟨rfl, rfl, Nat.le_refl 0, id, fun below => absurd below (Nat.lt_irrefl 0)⟩
  | succ left ih =>
      obtain ⟨executed, done⟩ := sound machine (by rw [startsFrom]; exact List.mem_cons_self)
      have runs : executeFrom period taken (left + 1) machine = _ := executeFrom_of_ok done
      have starts : startsFrom period taken (left + 1) machine = _ := startsFrom_of_ok done
      rw [starts] at sound ⊢
      cases blocked : (machine.step.2.tickAfter period (taken + 1)).blocked with
      | true =>
          simp only [blocked, if_true] at runs starts ⊢
          have final : (machine.session (beats period taken 1)).2 =
              machine.step.2.tickAfter period (taken + 1) := session_beats 0
          refine ⟨?_, ?_, Nat.succ_le_succ (Nat.zero_le left), fun _ => Nat.one_pos, fun _ => ?_⟩
          · rw [runs, List.length_singleton, final]
          · rw [starts, List.length_singleton, starts_beats]
            rfl
          · rw [List.length_singleton, final, blocked]
      | false =>
          simp only [blocked, Bool.false_eq_true, if_false] at runs starts sound ⊢
          obtain ⟨ends, further, within, _, waits⟩ := ih fun start member =>
            sound start (List.mem_cons_of_mem _ member)
          refine ⟨?_, ?_, Nat.succ_le_succ within, fun _ => Nat.succ_pos _, fun below => ?_⟩
          · rw [runs, ends, List.length_cons, session_beats, Nat.add_assoc, Nat.add_comm 1]
          · rw [starts, List.length_cons, starts_beats, further]
          · rw [List.length_cons, session_beats]
            exact waits (Nat.lt_of_succ_lt_succ below)

theorem read_step {timer : Timer}
    (other : ∀ x, machine.step.1 ≠ .ok (some (.register timer.setter x))) :
    timer.read machine.step.2 = timer.read machine := by
  refine Timer.read_of_kept (kept_step fun changed => ?_)
  obtain ⟨x, sets⟩ := Timer.set_of_changes changed
  exact other x sets

/-- A timer that no step sets has counted down the ticks. -/
theorem read_session {timer : Timer} {requests : List Request}
    (running : ∀ request ∈ requests, request = .step ∨ request = .tick)
    (other : ∀ start ∈ machine.starts requests, ∀ x,
      start.step.1 ≠ .ok (some (.register timer.setter x))) :
    (timer.read (machine.session requests).2).toNat =
      (timer.read machine).toNat - requests.count .tick := by
  induction requests generalizing machine with
  | nil => rfl
  | cons request rest ih =>
      obtain ⟨here, further⟩ := List.forall_mem_cons.mp running
      rw [starts] at other
      rcases here with rfl | rfl
      · rw [serve_step] at other
        obtain ⟨first, other⟩ := List.forall_mem_cons.mp other
        rw [session_step, ih further other, read_step first, List.count_cons_of_ne (by decide)]
      · rw [serve_tick] at other
        rw [session_tick, ih further other, timer.read_countDown, List.count_cons_self,
          Nat.sub_sub, Nat.add_comm]

/-! Runs that are cut in two. -/

/-- A run goes on where a shorter one that no key held up has ended. -/
theorem executeFrom_add {first count : Nat} (more : Nat)
    (run : executeFrom period taken first machine = (.ok count, middle))
    (free : middle.blocked = false) :
    count = taken + first ∧
      executeFrom period taken (first + more) machine =
        executeFrom period (taken + first) more middle := by
  induction first generalizing taken machine with
  | zero =>
      cases run
      exact ⟨rfl, by rw [Nat.zero_add, Nat.add_zero]⟩
  | succ first ih =>
      rw [Nat.add_right_comm first 1 more, ← Nat.add_assoc, Nat.add_right_comm taken first 1]
      cases outcome : machine.step.1 with
      | error cause =>
          rw [executeFrom_of_error outcome] at run
          cases run
      | ok executed =>
          rw [executeFrom_of_ok outcome] at run ⊢
          cases blocked : (machine.step.2.tickAfter period (taken + 1)).blocked with
          | true =>
              rw [blocked, if_pos rfl] at run
              cases run
              rw [blocked] at free
              cases free
          | false =>
              rw [blocked, if_neg Bool.false_ne_true] at run
              rw [if_neg Bool.false_ne_true]
              exact ih run

/-- A run fails where a shorter one did. -/
theorem executeFrom_add_of_error {first : Nat} (more : Nat)
    (run : executeFrom period taken first machine = (.error fault, after)) :
    executeFrom period taken (first + more) machine = (.error fault, after) := by
  induction first generalizing taken machine with
  | zero => cases run
  | succ first ih =>
      rw [Nat.add_right_comm first 1 more]
      cases outcome : machine.step.1 with
      | error cause =>
          rw [executeFrom_of_error outcome] at run ⊢
          exact run
      | ok executed =>
          rw [executeFrom_of_ok outcome] at run ⊢
          split at run
          · cases run
          · rename_i further
            rw [if_neg further]
            exact ih run

/-- Steps that were made before count, and matter for nothing else where the ticks fall alike. -/
theorem executeFrom_shift {shift : Nat} (aligned : period = 0 ∨ period ∣ shift) :
    executeFrom period (shift + taken) left machine =
      ((executeFrom period taken left machine).1.map (shift + ·),
        (executeFrom period taken left machine).2) := by
  induction left generalizing taken machine with
  | zero => rfl
  | succ left ih =>
      cases outcome : machine.step.1 with
      | error cause =>
          rw [executeFrom_of_error outcome, executeFrom_of_error outcome]
          rfl
      | ok executed =>
          rw [executeFrom_of_ok outcome, executeFrom_of_ok outcome, tickAfter, tickAfter,
            Nat.add_assoc, ticksAfter_add aligned, ← tickAfter]
          split
          · rfl
          · exact ih

theorem execute_natCast (cycles : Nat) :
    machine.execute cycles period =
      ((executeFrom period 0 cycles machine).1.map Int.ofNat,
        (executeFrom period 0 cycles machine).2) := by
  cases cycles with
  | zero => rfl
  | succ cycles => rw [execute, if_neg (by omega), Int.toNat_natCast]

theorem execute_completes {cycles : Int} (asked : 0 < cycles)
    (sound : ∀ start ∈ machine.startsOf (.execute cycles period), ∃ executed,
      start.step.1 = .ok executed) :
    let steps := (machine.startsOf (.execute cycles period)).length
    let requests := beats period 0 steps
    machine.execute cycles period = (.ok steps, (machine.session requests).2) ∧
      machine.starts requests = machine.startsOf (.execute cycles period) ∧
        1 ≤ steps ∧ steps ≤ cycles ∧
          (steps < cycles → (machine.session requests).2.blocked = true) := by
  obtain ⟨count, rfl⟩ := Int.eq_ofNat_of_zero_le (Int.le_of_lt asked)
  rw [startsOf, Int.toNat_natCast] at sound ⊢
  obtain ⟨ends, starts, within, begun, blocked⟩ := completes sound
  refine ⟨?_, starts, begun (by omega), by omega, fun below => blocked (by omega)⟩
  rw [execute_natCast, ends, Nat.zero_add]
  rfl

theorem execute_add {first second : Nat} {count : Int} (aligned : period = 0 ∨ period ∣ first)
    (run : machine.execute first period = (.ok count, middle)) (free : middle.blocked = false) :
    count = first ∧
      machine.execute (first + second) period =
        ((middle.execute second period).1.map ((first : Int) + ·),
          (middle.execute second period).2) := by
  rw [execute_natCast] at run
  cases ran : executeFrom period 0 first machine with
  | mk outcome final =>
      rw [ran] at run
      cases outcome with
      | error cause => cases run
      | ok steps =>
          cases run
          obtain ⟨all, further⟩ := executeFrom_add second ran free
          rw [Nat.zero_add] at all further
          refine ⟨congrArg Int.ofNat all, ?_⟩
          have shifted : executeFrom period (first + 0) second final = _ :=
            executeFrom_shift aligned
          rw [← Nat.cast_add, execute_natCast, execute_natCast, further, ← Nat.add_zero first,
            shifted]
          cases (executeFrom period 0 second final).1 <;> rfl

theorem execute_add_of_error {first : Nat} (second : Nat)
    (run : machine.execute first period = (.error fault, after)) :
    machine.execute (first + second) period = (.error fault, after) := by
  rw [execute_natCast] at run
  cases ran : executeFrom period 0 first machine with
  | mk outcome final =>
      rw [ran] at run
      cases outcome with
      | error cause =>
          cases run
          rw [← Nat.cast_add, execute_natCast, executeFrom_add_of_error second ran]
          rfl
      | ok steps => cases run

/-- A run that is asked for no steps does nothing. A run in which no step fails makes as many steps
    as it says, with a tick after every `period` of them, and stops early only at a key that is
    waited for. It may be cut in two where the next tick is as far ahead as at its beginning, and
    what fails in the first part fails likewise in the whole. -/
theorem execute_counts_and_splits (machine : Machine ρ) (period : Int) :
    (∀ cycles : Int, cycles ≤ 0 → machine.execute cycles period = (.ok cycles, machine)) ∧
      (∀ cycles : Int, 0 < cycles →
        (∀ start ∈ machine.startsOf (.execute cycles period), ∃ executed,
          start.step.1 = .ok executed) →
        let steps := (machine.startsOf (.execute cycles period)).length
        let requests := beats period 0 steps
        let final := (machine.session requests).2
        machine.execute cycles period = (.ok steps, final) ∧ 1 ≤ steps ∧ steps ≤ cycles ∧
          (steps < cycles → final.blocked = true) ∧
            machine.starts requests = machine.startsOf (.execute cycles period) ∧
              requests.count .step = steps ∧ requests.count .tick = steps / period.natAbs ∧
                ∀ timer : Timer,
                  (∀ start ∈ machine.starts requests, ∀ x,
                    start.step.1 ≠ .ok (some (.register timer.setter x))) →
                  (timer.read final).toNat =
                    (timer.read machine).toNat - steps / period.natAbs) ∧
        ∀ first second : Nat, period = 0 ∨ period ∣ first →
          (∀ count middle, machine.execute first period = (.ok count, middle) →
            middle.blocked = false →
              count = first ∧
                machine.execute (first + second) period =
                  ((middle.execute second period).1.map ((first : Int) + ·),
                    (middle.execute second period).2)) ∧
            ∀ fault after, machine.execute first period = (.error fault, after) →
              machine.execute (first + second) period = (.error fault, after) := by
  refine ⟨fun cycles none => ?_, fun cycles asked sound => ?_, fun first second aligned => ⟨?_, ?_⟩⟩
  · rw [execute, if_pos none]
  · intro steps requests final
    obtain ⟨ends, starts, begun, within, blocked⟩ := execute_completes asked sound
    have ticks : requests.count .tick = steps / period.natAbs := by
      have beat := count_tick_beats period 0 steps
      rwa [Nat.zero_div, Nat.zero_add, Nat.zero_add] at beat
    refine ⟨ends, begun, within, blocked, starts, count_step_beats steps, ticks, ?_⟩
    intro timer other
    rw [read_session running_beats other, ticks]
  · exact fun count middle run free => execute_add aligned run free
  · exact fun fault after run => execute_add_of_error second run

/-- A program waits for a key in its third step, another fails in its second. The timers tick after
    every other step. -/
theorem execute_counts_and_splits_third_step :
    ∃ waiting failing middle after : Machine ByteCycle,
      boot [0x60, 0x05, 0x61, 0x06, 0xF2, 0x0A] {} { values := [] } = .ok waiting ∧
        boot [0x60, 0x05, 0x00, 0x00] {} { values := [] } = .ok failing ∧
          let running := (waiting.session [.assignDelay 3]).2
          let final := (running.session [.step, .step, .tick, .step]).2
          running.execute (-1) (-2) = (.ok (-1), running) ∧
            running.execute 10 (-2) = (.ok 3, final) ∧ final.blocked = true ∧
              (Timer.delay.read final).toNat = 2 ∧
                (running.execute 2 (-2) = (.ok 2, middle) ∧
                  running.execute 10 (-2) =
                    ((middle.execute 8 (-2)).1.map (2 + ·), (middle.execute 8 (-2)).2)) ∧
                  failing.execute 2 (-2) = (.error (.invalidInstruction 0 0x202), after) ∧
                    failing.execute 10 (-2) = (.error (.invalidInstruction 0 0x202), after) := by
  obtain ⟨waiting, booted, outcomes, timer, whole, free⟩ : ∃ waiting : Machine ByteCycle,
      boot [0x60, 0x05, 0x61, 0x06, 0xF2, 0x0A] {} { values := [] } = .ok waiting ∧
        let running := (waiting.session [.assignDelay 3]).2
        (running.startsOf (.execute 10 (-2))).map (·.step.1) =
            [.ok (some (.immediate .load 0 5)), .ok (some (.immediate .load 1 6)),
              .ok (some (.register .awaitKey 2))] ∧
          running.delay = 3 ∧ (running.execute 2 (-2)).1 = .ok 2 ∧
            (running.execute 2 (-2)).2.blocked = false := ⟨_, rfl, by decide +kernel⟩
  obtain ⟨failing, bootedFailing, fails⟩ : ∃ failing : Machine ByteCycle,
      boot [0x60, 0x05, 0x00, 0x00] {} { values := [] } = .ok failing ∧
        (failing.execute 2 (-2)).1 = .error (.invalidInstruction 0 0x202) :=
    ⟨_, rfl, by decide +kernel⟩
  let running := (waiting.session [.assignDelay 3]).2
  refine ⟨waiting, failing, (running.execute 2 (-2)).2, (failing.execute 2 (-2)).2, booted,
    bootedFailing, (execute_counts_and_splits running (-2)).1 (-1) (by decide), ?_⟩
  have outcome {start : Machine ByteCycle} (member : start ∈ running.startsOf (.execute 10 (-2))) :
      start.step.1 ∈ [.ok (some (.immediate .load 0 5)), .ok (some (.immediate .load 1 6)),
        .ok (some (.register .awaitKey 2))] := by
    rw [← outcomes]
    exact List.mem_map_of_mem member
  have number : (running.startsOf (.execute 10 (-2))).length = 3 := by
    simpa using congrArg List.length outcomes
  have counted := (execute_counts_and_splits running (-2)).2.1 10 (by decide)
    fun start member => by
      have done := outcome member
      simp only [List.mem_cons, List.not_mem_nil, or_false] at done
      rcases done with done | done | done <;> exact ⟨_, done⟩
  have requests : beats (-2) 0 3 = [.step, .step, .tick, .step] := by decide
  rw [number] at counted
  dsimp only at counted
  rw [requests] at counted
  obtain ⟨ends, _, _, blocked, starts, _, _, timers⟩ := counted
  refine ⟨ends, blocked (by decide), ?_, ⟨Prod.ext whole rfl, ?_⟩, Prod.ext fails rfl, ?_⟩
  · have delay := timers .delay fun start member x sets => by
      rw [starts] at member
      have done := outcome member
      rw [sets] at done
      simp [Timer.setter] at done
    rw [show Timer.read running .delay = 3 from timer] at delay
    rw [delay]
    decide
  · exact (((execute_counts_and_splits running (-2)).2.2 2 8 (Or.inr (by decide))).1 2 _
      (Prod.ext whole rfl) free).2
  · exact ((execute_counts_and_splits failing (-2)).2.2 2 8 (Or.inr (by decide))).2 _ _
      (Prod.ext fails rfl)

end Step

end Machine

end Chip8
