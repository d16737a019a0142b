import Chip8.Proofs.Machine.Surroundings
import Chip8.Proofs.Machine.Waiting

namespace Chip8

/-- The instruction reads or sets a timer. -/
def Instruction.isTimed : Instruction → Bool
  | .register .readDelay _ | .register .setDelay _ | .register .setSound _ => true
  | _ => false

def Surroundings.countDown (scene : Surroundings) (ticks : Nat) : Surroundings :=
  { scene with
    delay := UInt8.ofNat (scene.delay.toNat - ticks)
    sound := UInt8.ofNat (scene.sound.toNat - ticks) }

namespace Keypad

variable {keypad : Keypad} {key other : Nibble} {pressed : Bool}

theorem key_val (access : KeyAccess) (key : Nibble) :
    Keypad.key access key.val = .ok key := by
  have bound := key.isLt
  rw [Keypad.key, if_neg (by omega), if_pos (by omega)]
  refine congrArg Except.ok (Fin.ext ?_)
  simp only [Nibble.ofNat, Fin.val_ofNat]
  omega

theorem isPressed_set_of_ne (apart : other ≠ key) :
    (keypad.set key pressed).isPressed other = keypad.isPressed other :=
  Vector.getElem_set_ne key.lt other.lt fun same => apart (Fin.ext same.symm)

end Keypad

namespace Machine

/-! What the host does to the timers and the keys, and the steps that may come before it as well as
    after it. -/

variable {ρ : Type} {machine : Machine ρ} {requests others : List Request}

/-- The replies to the steps of a session. -/
def stepReplies [ByteSource ρ] (machine : Machine ρ) : List Request → List (Except Refusal Reply)
  | [] => []
  | request :: rest =>
      if request = .step then
        (machine.serve request).1 :: stepReplies (machine.serve request).2 rest
      else stepReplies (machine.serve request).2 rest

section Step

variable [ByteSource ρ]

/-- The step executes no instruction that reads or sets a timer. -/
def Untimed (machine : Machine ρ) : Prop :=
  ∀ instruction, machine.step.1 = .ok (some instruction) → instruction.isTimed = false

theorem Untimed.same {scene : Surroundings} (untimed : machine.Untimed)
    (keypad : scene.keypad = machine.keypad) (memory : scene.memory = machine.memory)
    (settings : scene.settings = machine.settings) {aspect : Aspect}
    (inspected : machine.Inspects aspect) : aspect.Same machine.surroundings scene := by
  cases aspect with
  | delay =>
      obtain ⟨i, executed, heeded⟩ := inspected.executed nofun nofun
      obtain ⟨x, rfl⟩ := of_heeds_delay heeded
      cases untimed _ executed
  | key k => exact congrArg (Keypad.isPressed · k) keypad
  | cell address => exact congrArg (Memory.cell · address) memory
  | shiftFlag => exact congrArg Settings.normalizeShiftFlag settings
  | increment => exact congrArg Settings.incrementIndex settings

/-- Ticks before such a step are as good as ticks after it. -/
theorem Untimed.step_countDown (untimed : machine.Untimed) (ticks : Nat) :
    (machine.countDown ticks).step = (machine.step.1, machine.step.2.countDown ticks) := by
  refine step_change (Surroundings.countDown · ticks)
    (fun aspect inspected => untimed.same rfl rfl rfl inspected) fun instruction executed => ?_
  have plain := untimed instruction executed
  cases instruction with
  | register op x =>
      cases op with
      | setDelay => cases plain
      | setSound => cases plain
      | _ => rfl
  | _ => rfl

theorem untimed_countDown {ticks : Nat} :
    (machine.countDown ticks).Untimed ↔ machine.Untimed := by
  constructor
  · intro untimed
    -- The machine itself is the one that counted down, in the surroundings it had before.
    have stepped := step_amid (machine.countDown ticks) machine.surroundings
      fun aspect inspected => untimed.same rfl rfl rfl inspected
    intro instruction executed
    exact untimed instruction ((congrArg Prod.fst stepped).symm.trans executed)
  · intro untimed instruction executed
    rw [untimed.step_countDown] at executed
    exact untimed instruction executed

theorem serve_step (machine : Machine ρ) :
    machine.serve .step =
      ((machine.step.1.map Reply.executed).mapError Refusal.fault, machine.step.2) := by
  rw [serve]

theorem reply_executed {instruction : Instruction}
    (executed : machine.step.1 = .ok (some instruction)) :
    (machine.serve .step).1 = .ok (.executed (some instruction)) := by
  rw [serve_step, executed]
  rfl

theorem session_step (rest : List Request) :
    (machine.session (.step :: rest)).2 = (machine.step.2.session rest).2 := by
  rw [session_cons, serve_step]

theorem session_tick (rest : List Request) :
    (machine.session (.tick :: rest)).2 = ((machine.countDown 1).session rest).2 := by
  rw [session_cons, serve_tick]

theorem session_pair (first second : Request) :
    machine.session [first, second] =
      ([(machine.serve first).1, ((machine.serve first).2.serve second).1],
        ((machine.serve first).2.serve second).2) := by
  rw [session_cons, session_cons, session]

theorem stepReplies_step (rest : List Request) :
    machine.stepReplies (.step :: rest) =
      (machine.serve .step).1 :: machine.step.2.stepReplies rest := by
  rw [stepReplies, if_pos rfl]
  rfl

theorem stepReplies_tick (rest : List Request) :
    machine.stepReplies (.tick :: rest) = (machine.countDown 1).stepReplies rest := by
  rw [stepReplies, if_neg (by decide), serve_tick]

theorem stepReplies_cons_subset {request : Request} {rest : List Request} :
    (machine.serve request).2.stepReplies rest ⊆ machine.stepReplies (request :: rest) := by
  rw [stepReplies]
  split
  · exact List.subset_cons_self _ _
  · exact List.Subset.refl _

/-- No instruction that the steps of a session execute reads or sets a timer. -/
def AllUntimed (machine : Machine ρ) (requests : List Request) : Prop :=
  ∀ instruction, .ok (.executed (some instruction)) ∈ machine.stepReplies requests →
    instruction.isTimed = false

theorem AllUntimed.rest {request : Request} {rest : List Request}
    (untimed : machine.AllUntimed (request :: rest)) :
    (machine.serve request).2.AllUntimed rest :=
  fun instruction member => untimed instruction (stepReplies_cons_subset member)

theorem AllUntimed.first {rest : List Request} (untimed : machine.AllUntimed (.step :: rest)) :
    machine.Untimed := by
  intro instruction executed
  refine untimed instruction ?_
  rw [stepReplies_step, reply_executed executed]
  exact List.mem_cons_self

/-- A step and a tick next to each other change places. -/
theorem Untimed.swap (untimed : machine.Untimed) (rest : List Request) :
    machine.stepReplies (.tick :: .step :: rest) = machine.stepReplies (.step :: .tick :: rest) ∧
      (machine.session (.tick :: .step :: rest)).2 =
        (machine.session (.step :: .tick :: rest)).2 := by
  have stepped := untimed.step_countDown 1
  have reply : ((machine.countDown 1).serve .step).1 = (machine.serve .step).1 := by
    rw [serve_step, serve_step, stepped]
  constructor
  · rw [stepReplies_tick, stepReplies_step, stepReplies_step, stepReplies_tick, reply, stepped]
  · rw [session_tick, session_step, session_step, session_tick, stepped]

/-- By one exchange of neighbours after the other every order of some steps and ticks turns into
    every other. -/
theorem interleavings_agree (alike : requests.Perm others)
    (moments : ∀ request ∈ requests, request = .step ∨ request = .tick)
    (untimed : machine.AllUntimed requests) :
    machine.stepReplies others = machine.stepReplies requests ∧
      (machine.session others).2 = (machine.session requests).2 := by
  induction alike generalizing machine with
  | nil => exact ⟨rfl, rfl⟩
  | cons request alike ih =>
      obtain ⟨replies, final⟩ := ih (List.forall_mem_cons.mp moments).2 untimed.rest
      exact ⟨by rw [stepReplies, stepReplies, replies], final⟩
  | swap first second rest =>
      obtain ⟨later, earlier, _⟩ : (second = .step ∨ second = .tick) ∧
          (first = .step ∨ first = .tick) ∧ _ := by
        simpa only [List.forall_mem_cons] using moments
      rcases later with rfl | rfl <;> rcases earlier with rfl | rfl
      · exact ⟨rfl, rfl⟩
      · exact untimed.first.swap rest
      · have ticked := untimed.rest.first
        rw [serve_tick] at ticked
        obtain ⟨replies, final⟩ := (untimed_countDown.mp ticked).swap rest
        exact ⟨replies.symm, final.symm⟩
      · exact ⟨rfl, rfl⟩
  | trans front back frontIH backIH =>
      obtain ⟨replies, final⟩ := frontIH moments untimed
      have further := backIH (fun request member => moments request (front.mem_iff.mpr member))
        (by rw [AllUntimed, replies]; exact untimed)
      exact ⟨further.1.trans replies, further.2.trans final⟩

/-! Keys. -/

theorem serve_setKey (machine : Machine ρ) (key : Nibble) (pressed : Bool) :
    machine.serve (.setKey key.val pressed) =
      (.ok .done, { machine with keypad := machine.keypad.set key pressed }) := by
  rw [serve, Keypad.setKeyPressed, Keypad.key_val]
  rfl

/-- A key that the step does not ask for may be pressed or released before the step or after it. -/
theorem step_setKey {key : Nibble} (pressed : Bool) (free : machine.waiting = none)
    (unasked : ∀ x, machine.step.1 = .ok (some (.register .skipPressed x)) ∨
      machine.step.1 = .ok (some (.register .skipReleased x)) →
        (machine.register x).toNat % 16 ≠ key.val) :
    let held : Machine ρ := { machine with keypad := machine.keypad.set key pressed }
    held.step = (machine.step.1, { machine.step.2 with
      keypad := machine.step.2.keypad.set key pressed }) := by
  refine step_change (fun scene => { scene with keypad := scene.keypad.set key pressed })
    (fun aspect inspected => ?_) fun _ _ => rfl
  cases aspect with
  | key other =>
      refine Keypad.isPressed_set_of_ne ?_
      rintro rfl
      obtain ⟨i, executed, heeded⟩ := inspected.executed (fun _ _ => free) nofun
      obtain ⟨x, skips, same⟩ := of_heeds_key heeded
      refine unasked x (skips.imp ?_ ?_) (congrArg Fin.val same).symm
      · exact fun skip => executed.trans (congrArg (Except.ok ∘ some) skip)
      · exact fun skip => executed.trans (congrArg (Except.ok ∘ some) skip)
  | _ => rfl

/-- Steps and ticks may change places as long as no step reads or sets a timer: another order of
    the same steps and ticks gives the same replies to the steps and the same machine at the end. A
    key may be pressed or released before or after a step, unless the machine waits for one or the
    step asks for this key. -/
theorem host_events_commute (machine : Machine ρ) :
    (∀ requests others : List Request,
      (∀ request ∈ requests, request = .step ∨ request = .tick) → requests.Perm others →
        (∀ instruction, .ok (.executed (some instruction)) ∈ machine.stepReplies requests →
          instruction.isTimed = false) →
          machine.stepReplies others = machine.stepReplies requests ∧
            (machine.session others).2 = (machine.session requests).2) ∧
      ∀ (key : Nibble) (pressed : Bool), machine.waiting = none →
        (∀ x, machine.step.1 = .ok (some (.register .skipPressed x)) ∨
          machine.step.1 = .ok (some (.register .skipReleased x)) →
            (machine.register x).toNat % 16 ≠ key.val) →
          ∃ reply final,
            machine.session [.setKey key.val pressed, .step] = ([.ok .done, reply], final) ∧
              machine.session [.step, .setKey key.val pressed] = ([reply, .ok .done], final) := by
  refine ⟨fun requests others moments alike untimed => ?_, fun key pressed free unasked => ?_⟩
  · exact interleavings_agree alike moments untimed
  · have stepped := step_setKey pressed free unasked
    refine ⟨(machine.serve .step).1,
      { machine.step.2 with keypad := machine.step.2.keypad.set key pressed }, ?_, ?_⟩
    · rw [session_pair, serve_setKey]
      dsimp only
      rw [serve_step, stepped, serve_step]
    · rw [session_pair, serve_setKey, serve_step]

/-- A register is loaded, a key is asked for that it does not name, and the third word is no
    instruction. -/
theorem host_events_commute_invalid_word :
    ∃ machine : Machine ByteCycle,
      boot [0x60, 0x03, 0xE0, 0x9E, 0x00, 0x00] {} { values := [] } = .ok machine ∧
        let running := (machine.session [.assignDelay 2]).2
        let asking := (running.session [.step]).2
        running.stepReplies [.tick, .step, .step, .tick, .step] =
            running.stepReplies [.step, .tick, .step, .step, .tick] ∧
          (running.session [.tick, .step, .step, .tick, .step]).2 =
              (running.session [.step, .tick, .step, .step, .tick]).2 ∧
            ∃ reply final, asking.session [.setKey 4 true, .step] = ([.ok .done, reply], final) ∧
              asking.session [.step, .setKey 4 true] = ([reply, .ok .done], final) := by
  obtain ⟨machine, booted, replies, free, asked, named⟩ : ∃ machine : Machine ByteCycle,
      boot [0x60, 0x03, 0xE0, 0x9E, 0x00, 0x00] {} { values := [] } = .ok machine ∧
        let running := (machine.session [.assignDelay 2]).2
        let asking := (running.session [.step]).2
        running.stepReplies [.step, .tick, .step, .step, .tick] =
            [.ok (.executed (some (.immediate .load 0 3))),
              .ok (.executed (some (.register .skipPressed 0))),
              .error (.fault (.invalidInstruction 0 0x204))] ∧
          asking.waiting = none ∧ asking.step.1 = .ok (some (.register .skipPressed 0)) ∧
            (asking.register 0).toNat % 16 = 3 := ⟨_, rfl, by decide +kernel⟩
  refine ⟨machine, booted, ?_⟩
  have commute := (host_events_commute (machine.session [.assignDelay 2]).2).1
    [.step, .tick, .step, .step, .tick] [.tick, .step, .step, .tick, .step] (by decide) (by decide)
    fun instruction member => by
      rw [replies] at member
      simp only [List.mem_cons, Except.ok.injEq, Reply.executed.injEq, Option.some.injEq,
        reduceCtorEq, List.not_mem_nil, or_false] at member
      rcases member with rfl | rfl <;> rfl
  refine ⟨commute.1, commute.2, ?_⟩
  refine (host_events_commute _).2 4 true free fun x skips => ?_
  rw [asked] at skips
  have same : x = 0 := by simpa [eq_comm] using skips
  rw [same, named]
  decide

end Step

end Machine

end Chip8
