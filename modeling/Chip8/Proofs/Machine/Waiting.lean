import Chip8.Proofs.Machine.Session

namespace Chip8

namespace Keypad

variable {keypad : Keypad} {key : Nibble}

theorem firstPressed_eq_none_iff :
    keypad.firstPressed = none ↔ ∀ key, keypad.isPressed key = false := by
  simp [firstPressed]

theorem firstPressed_eq_some_iff :
    keypad.firstPressed = some key ↔
      keypad.isPressed key = true ∧ ∀ other, keypad.isPressed other = true → key ≤ other := by
  rw [firstPressed, List.find?_eq_some_iff_getElem]
  refine and_congr_right fun _ => ?_
  constructor
  · intro found other pressed
    obtain ⟨place, inside, rfl, earlier⟩ := found
    by_contra lower
    rw [List.getElem_finRange] at lower
    have released := earlier other.val (Nat.lt_of_not_le lower)
    simp [pressed] at released
  · intro lowest
    refine ⟨key.val, by simp, by simp, fun place before => ?_⟩
    rw [List.getElem_finRange]
    by_contra pressed
    exact Nat.not_le.mpr before (lowest _ (by simpa using pressed))

end Keypad

namespace Machine

/-! A machine that waits for a key. Until one is pressed its steps leave no trace, so runs that
    differ by such steps alone are the same run. -/

variable {ρ : Type} {machine : Machine ρ} {x : Register} {requests others : List Request}

/-- The machine waits for a key and none is pressed. -/
def Idle (machine : Machine ρ) : Prop :=
  machine.blocked = true ∧ ∀ key, machine.keypad.isPressed key = false

instance (machine : Machine ρ) : Decidable machine.Idle :=
  inferInstanceAs (Decidable (_ ∧ _))

/-- The timers as they stand after a number of ticks. -/
def countDown (machine : Machine ρ) (ticks : Nat) : Machine ρ :=
  { machine with
    delay := UInt8.ofNat (machine.delay.toNat - ticks)
    sound := UInt8.ofNat (machine.sound.toNat - ticks) }

theorem countDown_zero : machine.countDown 0 = machine := by
  simp [countDown]

theorem toNat_countDown (timer : UInt8) (ticks : Nat) :
    (UInt8.ofNat (timer.toNat - ticks)).toNat = timer.toNat - ticks := by
  have bound := timer.toNat_lt
  rw [UInt8.toNat_ofNat']
  omega

theorem countDown_countDown (ticks more : Nat) :
    (machine.countDown ticks).countDown more = machine.countDown (ticks + more) := by
  simp only [countDown, toNat_countDown, Nat.sub_sub]

theorem tickTimers_eq_countDown : machine.tickTimers = machine.countDown 1 := by
  have tick (timer : UInt8) :
      (if timer > 0 then timer - 1 else 0) = UInt8.ofNat (timer.toNat - 1) := by
    have bound := timer.toNat_lt
    apply UInt8.toNat_inj.mp
    rw [toNat_countDown]
    by_cases running : timer > 0
    · have positive : 0 < timer.toNat := UInt8.lt_iff_toNat_lt.mp running
      rw [if_pos running, UInt8.toNat_sub]
      simp only [UInt8.reduceToNat]
      omega
    · have still : ¬ 0 < timer.toNat := fun positive => running (UInt8.lt_iff_toNat_lt.mpr positive)
      rw [if_neg running]
      simp only [UInt8.reduceToNat]
      omega
  simp only [tickTimers, countDown, tick]

/-- What an idle machine answers to a step or a tick. -/
def idleReply : Request → Except Refusal Reply
  | .step => .ok (.executed none)
  | _ => .ok .done

/-- Two runs from one machine that differ by steps of an idle machine alone. -/
inductive Stutters [ByteSource ρ] : Machine ρ → List Request → List Request → Prop
  | done (machine : Machine ρ) : Stutters machine [] []
  | both (machine : Machine ρ) (request : Request) {requests others : List Request}
      (further : Stutters (machine.serve request).2 requests others) :
      Stutters machine (request :: requests) (request :: others)
  | inserted {machine : Machine ρ} {requests others : List Request} (idle : machine.Idle)
      (further : Stutters machine requests others) : Stutters machine requests (.step :: others)
  | removed {machine : Machine ρ} {requests others : List Request} (idle : machine.Idle)
      (further : Stutters machine requests others) : Stutters machine (.step :: requests) others

/-- A run without the steps of an idle machine: every other request with the reply to it and the
    machine that it leaves. -/
def course [ByteSource ρ] (machine : Machine ρ) :
    List Request → List (Request × Except Refusal Reply × Machine ρ)
  | [] => []
  | request :: rest =>
      if request = .step ∧ machine.Idle then course machine rest
      else (request, machine.serve request) :: course (machine.serve request).2 rest

theorem idle_countDown (ticks : Nat) : (machine.countDown ticks).Idle ↔ machine.Idle := Iff.rfl

section Run

variable [ByteSource ρ]

theorem Idle.step (idle : machine.Idle) : machine.step = (.ok none, machine) := by
  obtain ⟨waiting, released⟩ := idle
  obtain ⟨x, waiting⟩ := Option.isSome_iff_exists.mp waiting
  rw [step_waiting waiting, pollKeypad, Keypad.firstPressed_eq_none_iff.mpr released]

theorem Idle.serve_step (idle : machine.Idle) :
    machine.serve .step = (.ok (.executed none), machine) := by
  rw [serve, idle.step]
  rfl

theorem serve_tick : machine.serve .tick = (.ok .done, machine.countDown 1) := by
  rw [serve, tickTimers_eq_countDown]

theorem Idle.session (idle : machine.Idle)
    (moments : ∀ request ∈ requests, request = .step ∨ request = .tick) :
    machine.session requests =
      (requests.map idleReply, machine.countDown (requests.count .tick)) := by
  induction requests generalizing machine with
  | nil => simp [Machine.session, countDown_zero]
  | cons request rest ih =>
      obtain ⟨here, further⟩ := List.forall_mem_cons.mp moments
      rw [session_cons]
      rcases here with rfl | rfl
      · rw [idle.serve_step, ih idle further]
        simp [idleReply]
      · rw [serve_tick, ih ((idle_countDown 1).mpr idle) further]
        simp [idleReply, countDown_countDown, Nat.add_comm]

theorem ticksAfter_succ (period : Int) (steps : Nat) :
    ticksAfter period (steps + 1) = decide (period.natAbs ∣ steps + 1) := by
  have divides : ((steps + 1 : Nat) : Int) % period = 0 ↔ period.natAbs ∣ steps + 1 := by
    rw [← Int.dvd_iff_emod_eq_zero, ← Int.natAbs_dvd_natAbs, Int.natAbs_natCast]
  rw [ticksAfter, Bool.eq_iff_iff, Bool.and_eq_true, bne_iff_ne, beq_iff_eq, divides,
    decide_eq_true_eq, and_iff_right_iff_imp]
  rintro due rfl
  exact absurd (Nat.eq_zero_of_zero_dvd due) (Nat.succ_ne_zero steps)

theorem ticksAfter_one (period : Int) :
    ticksAfter period 1 = decide (period = 1 ∨ period = -1) := by
  have unit : period.natAbs ∣ 1 ↔ period = 1 ∨ period = -1 := by
    rw [Nat.dvd_one, Int.natAbs_eq_iff, Nat.cast_one]
  exact (ticksAfter_succ period 0).trans (decide_eq_decide.mpr unit)

theorem Idle.execute {cycles : Int} (idle : machine.Idle) (period : Int) (asked : 1 ≤ cycles) :
    machine.execute cycles period =
      (.ok 1, if period = 1 ∨ period = -1 then machine.countDown 1 else machine) := by
  have ticked : machine.tickAfter period 1 =
      if period = 1 ∨ period = -1 then machine.countDown 1 else machine := by
    rw [tickAfter, ticksAfter_one, tickTimers_eq_countDown]
    simp only [decide_eq_true_eq]
  have blocked : (machine.tickAfter period 1).blocked = true := by
    rw [ticked]
    split <;> exact idle.1
  obtain ⟨left, count⟩ : ∃ left, cycles.toNat = left + 1 := ⟨cycles.toNat - 1, by omega⟩
  rw [Machine.execute, if_neg (by omega), count, executeFrom, idle.step]
  simp only [Nat.zero_add, blocked, if_true]
  rw [ticked]
  rfl

/-- The lowest of the keys that are pressed ends the waiting. -/
theorem step_polled (waiting : machine.waiting = some x)
    (pressed : ∃ key, machine.keypad.isPressed key = true) :
    ∃ key, machine.keypad.isPressed key = true ∧
      (∀ other, machine.keypad.isPressed other = true → key ≤ other) ∧
        machine.step =
          (.ok none, { machine.setRegister x (UInt8.ofNat key.val) with waiting := none }) := by
  cases first : machine.keypad.firstPressed with
  | none =>
      obtain ⟨key, down⟩ := pressed
      rw [Keypad.firstPressed_eq_none_iff.mp first key] at down
      cases down
  | some key =>
      obtain ⟨down, lowest⟩ := Keypad.firstPressed_eq_some_iff.mp first
      refine ⟨key, down, lowest, ?_⟩
      rw [step_waiting waiting, pollKeypad, first]

theorem Idle.course_step (idle : machine.Idle) :
    machine.course (.step :: requests) = machine.course requests := by
  rw [course, if_pos ⟨rfl, idle⟩]

theorem Idle.session_step (idle : machine.Idle) :
    (machine.session (.step :: requests)).2 = (machine.session requests).2 := by
  rw [session_cons, idle.serve_step]

theorem Stutters.same (alike : machine.Stutters requests others) :
    machine.course requests = machine.course others ∧
      (machine.session requests).2 = (machine.session others).2 := by
  induction alike with
  | done machine => exact ⟨rfl, rfl⟩
  | both machine request further ih =>
      obtain ⟨courses, ends⟩ := ih
      refine ⟨?_, ends⟩
      by_cases idle : request = .step ∧ machine.Idle
      · -- The step that both take is itself left out, so the machine is the same after it.
        obtain ⟨rfl, idle⟩ := idle
        rw [idle.serve_step] at courses
        rw [idle.course_step, idle.course_step, courses]
      · rw [course, course, if_neg idle, if_neg idle, courses]
  | inserted idle further ih =>
      rw [idle.course_step, idle.session_step]
      exact ih
  | removed idle further ih =>
      rw [idle.course_step, idle.session_step]
      exact ih

/-- While no key is pressed, a machine that waits for one answers nothing to its steps and is
    changed by ticks alone, and many steps at once end with the first. The first step that finds
    keys pressed takes the lowest of them and does nothing else. So runs that differ by steps
    without a key have the same course. -/
theorem waiting_stutters (machine : Machine ρ) :
    (machine.Idle →
      (∀ requests : List Request, (∀ request ∈ requests, request = .step ∨ request = .tick) →
        machine.session requests =
          (requests.map idleReply, machine.countDown (requests.count .tick))) ∧
        ∀ cycles period : Int, 1 ≤ cycles →
          machine.execute cycles period =
            (.ok 1, if period = 1 ∨ period = -1 then machine.countDown 1 else machine)) ∧
      (∀ x, machine.waiting = some x → (∃ key, machine.keypad.isPressed key = true) →
        ∃ key, machine.keypad.isPressed key = true ∧
          (∀ other, machine.keypad.isPressed other = true → key ≤ other) ∧
            machine.step =
              (.ok none, { machine.setRegister x (UInt8.ofNat key.val) with waiting := none })) ∧
        ∀ requests others : List Request, machine.Stutters requests others →
          machine.course requests = machine.course others ∧
            (machine.session requests).2 = (machine.session others).2 := by
  refine ⟨fun idle => ⟨fun requests moments => ?_, fun cycles period asked => ?_⟩, ?_, ?_⟩
  · exact idle.session moments
  · exact idle.execute period asked
  · exact fun x waiting pressed => step_polled waiting pressed
  · exact fun requests others alike => alike.same

/-- The program waits for a key into a register while the timers run. Of the two keys that are then
    pressed the lower counts. -/
theorem waiting_stutters_two_keys :
    ∃ machine : Machine ByteCycle, boot [0xF3, 0x0A] {} { values := [] } = .ok machine ∧
      let waiting := (machine.session [.assignDelay 2, .assignSound 9, .step]).2
      let pressed := (waiting.session [.setKey 9 true, .setKey 4 true]).2
      waiting.Idle ∧
        waiting.session [.step, .tick, .tick, .step, .tick] =
            ([.ok (.executed none), .ok .done, .ok .done, .ok (.executed none), .ok .done],
              waiting.countDown 3) ∧
          waiting.execute 5 (-1) = (.ok 1, waiting.countDown 1) ∧
            pressed.step = (.ok none, { pressed.setRegister 3 4 with waiting := none }) ∧
              (waiting.session [.step, .setKey 9 true, .setKey 4 true]).2 = pressed := by
  obtain ⟨machine, booted, idle, waits, down, lowest⟩ : ∃ machine : Machine ByteCycle,
      boot [0xF3, 0x0A] {} { values := [] } = .ok machine ∧
        let waiting := (machine.session [.assignDelay 2, .assignSound 9, .step]).2
        let pressed := (waiting.session [.setKey 9 true, .setKey 4 true]).2
        waiting.Idle ∧ pressed.waiting = some 3 ∧ pressed.keypad.isPressed 9 = true ∧
          ∀ key, pressed.keypad.isPressed key = true →
            (∀ other, pressed.keypad.isPressed other = true → key ≤ other) → key = 4 :=
    ⟨_, rfl, by decide +kernel⟩
  refine ⟨machine, booted, idle, ?_, ?_, ?_, ?_⟩
  · exact ((waiting_stutters _).1 idle).1 _ (by decide)
  · exact ((waiting_stutters _).1 idle).2 5 (-1) (by decide)
  · obtain ⟨key, found, first, polled⟩ := (waiting_stutters _).2.1 3 waits ⟨9, down⟩
    rw [lowest key found first] at polled
    exact polled
  · exact ((waiting_stutters _).2.2 _ _
      (.removed idle (.both _ _ (.both _ _ (.done _))))).2

end Run

end Machine

end Chip8
