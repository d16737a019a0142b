import Chip8.Proofs.Machine.Surroundings
import Chip8.Proofs.Machine.Tracking

namespace Chip8

/-- Settings with other values for what a machine takes over when it is booted. -/
def Settings.refit (settings : Settings) (clip : Bool) (depth : Int) : Settings :=
  { settings with clipSprites := clip, stackDepth := depth }

/-- The same replies, save that settings which are told may differ in these two values. -/
inductive Reply.Alike : Except Refusal Reply → Except Refusal Reply → Prop
  | same (reply : Except Refusal Reply) : Alike reply reply
  | refit (settings : Settings) (clip : Bool) (depth : Int) :
      Alike (.ok (.settings settings)) (.ok (.settings (settings.refit clip depth)))

namespace Framebuffer

variable {display : Framebuffer} {memory : Memory} {index size x y : Int}

theorem clip_stamp (display : Framebuffer) (x y : Nat) (sprite : List UInt8) :
    (display.stamp x y sprite).2.clip = display.clip := by
  induction sprite generalizing display y with
  | nil => rfl
  | cons bits rest ih =>
      rw [stamp]
      split
      · rfl
      · exact ih _ _

theorem clip_draw {drawn : Bool × Framebuffer}
    (done : display.draw memory index size x y = .ok drawn) : drawn.2.clip = display.clip := by
  obtain ⟨sprite, _, done⟩ := bind_eq_ok_iff.mp done
  cases done
  exact clip_stamp ..

end Framebuffer

namespace Machine

/-! How far a setting reaches. Two of the four are looked at by no request after the boot, and each
    of the other two by the instructions alone that it is about. -/

variable {ρ : Type} {machine other : Machine ρ} {settings : Settings} {requests : List Request}
  {Near : Settings → Settings → Prop}

def withSettings (machine : Machine ρ) (settings : Settings) : Machine ρ :=
  { machine with settings }

/-- Two machines that differ in their settings alone, and there no more than allowed. -/
def SameBut (Near : Settings → Settings → Prop) (machine other : Machine ρ) : Prop :=
  ∃ settings, Near machine.settings settings ∧ other = machine.withSettings settings

/-- The step looks at no setting that is changed. -/
def Indifferent (machine : Machine ρ) (settings : Settings) : Prop :=
  (machine.Inspects .shiftFlag →
      settings.normalizeShiftFlag = machine.settings.normalizeShiftFlag) ∧
    (machine.Inspects .increment →
      settings.incrementIndex = machine.settings.incrementIndex)

/-- The same settings save for what a machine takes over when it is booted. -/
def Refit (settings other : Settings) : Prop :=
  ∃ clip depth, other = settings.refit clip depth

theorem indifferent_refit (near : Refit machine.settings settings) :
    machine.Indifferent settings := by
  obtain ⟨clip, depth, rfl⟩ := near
  exact ⟨fun _ => rfl, fun _ => rfl⟩

section Run

variable [ByteSource ρ]

theorem Indifferent.step (indifferent : machine.Indifferent settings) :
    (machine.withSettings settings).step =
      (machine.step.1, machine.step.2.withSettings settings) := by
  refine step_change (fun scene => { scene with settings })
    (fun aspect inspected => ?_) fun _ _ => rfl
  cases aspect with
  | shiftFlag => exact indifferent.1 inspected
  | increment => exact indifferent.2 inspected
  | _ => rfl

theorem settings_step (machine : Machine ρ) : machine.step.2.settings = machine.settings := by
  have left : (machine.surroundings.past machine).settings = machine.settings := by
    rw [Surroundings.past]
    split <;> rfl
  exact (congrArg Surroundings.settings surroundings_step).trans left

/-- Two machines that differ in their settings alone, where no step ahead of the first looks at a
    difference. -/
structure Unseen (Near : Settings → Settings → Prop) (ahead : List (Machine ρ))
    (machine other : Machine ρ) : Prop where
  same : SameBut Near machine other
  blind : ∀ start ∈ ahead, ∀ settings, Near start.settings settings → start.Indifferent settings

theorem tracks_unseen : Tracks (Unseen (ρ := ρ) Near) where
  blocked := by
    rintro ahead machine _ ⟨⟨settings, _, rfl⟩, _⟩
    rfl
  ticked := by
    rintro ahead machine _ ⟨⟨settings, near, rfl⟩, blind⟩
    exact ⟨⟨settings, near, rfl⟩, blind⟩
  stepped := by
    rintro ahead machine _ ⟨⟨settings, near, rfl⟩, blind⟩
    obtain ⟨here, further⟩ := List.forall_mem_cons.mp blind
    rw [(here settings near).step]
    exact ⟨rfl, ⟨settings, machine.settings_step ▸ near, rfl⟩, further⟩

theorem serve_unseen {ahead : List (Machine ρ)} {request : Request}
    (free : ∀ change, request ≠ .changeSettings change)
    (unseen : Unseen Near (machine.startsOf request ++ ahead) machine other) :
    (other.serve request).1 = (machine.serve request).1 ∧
      Unseen Near ahead (machine.serve request).2 (other.serve request).2 := by
  have ran (running) := tracks_unseen.serve running unseen
  obtain ⟨settings, near, rfl⟩ := unseen.same
  have kept {after : Machine ρ} (same : after.settings = machine.settings) :
      Unseen Near ahead after (after.withSettings settings) :=
    ⟨⟨settings, same ▸ near, rfl⟩, fun start ahead =>
      unseen.blind start (List.mem_append_right _ ahead)⟩
  cases request with
  | step => exact ran (Or.inl rfl)
  | execute cycles period => exact ran (Or.inr (Or.inr ⟨cycles, period, rfl⟩))
  | tick => exact ran (Or.inr (Or.inl rfl))
  | changeSettings change => exact absurd rfl (free change)
  | setKey key pressed => exact change_related unseen fun _ => kept rfl
  | write8 address value => exact change_related unseen fun _ => kept rfl
  | write16 address value => exact change_related unseen fun _ => kept rfl
  | writeBlock address bytes => exact change_related unseen fun _ => kept rfl
  | push value => exact change_related unseen fun _ => kept rfl
  | pop => exact change_related unseen fun _ => kept rfl
  | loadRom rom => exact change_related unseen fun _ => kept rfl
  | draw index size x y => exact change_related unseen fun _ => kept rfl
  | _ => exact ⟨rfl, kept rfl⟩

theorem serve_refit {request : Request} (related : SameBut Refit machine other) :
    Reply.Alike (machine.serve request).1 (other.serve request).1 ∧
      SameBut Refit (machine.serve request).2 (other.serve request).2 := by
  by_cases changes : ∃ change, request = .changeSettings change
  · obtain ⟨change, rfl⟩ := changes
    obtain ⟨settings, ⟨clip, depth, rfl⟩, rfl⟩ := related
    let clip := change.clipSprites.getD clip
    let depth := change.stackDepth.getD depth
    exact ⟨.refit (machine.settings.update change) clip depth, _, ⟨clip, depth, rfl⟩, rfl⟩
  · have unseen : Unseen Refit (machine.startsOf request ++ []) machine other :=
      ⟨related, fun start _ settings near => indifferent_refit near⟩
    obtain ⟨same, final⟩ := serve_unseen (fun change same => changes ⟨change, same⟩) unseen
    rw [same]
    exact ⟨.same _, final.same⟩

/-- A session in which no step looks at a setting that was changed. -/
theorem session_unseen (free : ∀ change, .changeSettings change ∉ requests)
    (unseen : Unseen Near (machine.starts requests) machine other) :
    (other.session requests).1 = (machine.session requests).1 ∧
      SameBut Near (machine.session requests).2 (other.session requests).2 := by
  have kinds : ∀ request ∈ requests, ∀ change, request ≠ .changeSettings change := by
    rintro request member change rfl
    exact free change member
  obtain ⟨replies, final⟩ := session_tracked (fun _ _ _ _ => serve_unseen) kinds unseen
  exact ⟨replies, final.same⟩

theorem indifferent_normalize {flag : Bool}
    (unshifted : ∀ x y, machine.step.1 = .ok (some (.pair .shiftLeft x y)) →
      machine.register x &&& 0x80 = 0) :
    machine.Indifferent { machine.settings with normalizeShiftFlag := flag } := by
  refine ⟨fun inspected => ?_, fun _ => rfl⟩
  obtain ⟨i, executed, heeded⟩ := inspected.executed nofun nofun
  obtain ⟨x, y, rfl, lost⟩ := of_heeds_shiftFlag heeded
  exact absurd (unshifted x y executed) lost

theorem indifferent_increment {flag : Bool}
    (untransferred : ∀ x, machine.step.1 ≠ .ok (some (.register .store x)) ∧
      machine.step.1 ≠ .ok (some (.register .load x))) :
    machine.Indifferent { machine.settings with incrementIndex := flag } := by
  refine ⟨fun _ => rfl, fun inspected => ?_⟩
  obtain ⟨i, executed, heeded⟩ := inspected.executed nofun nofun
  obtain ⟨x, rfl | rfl⟩ := of_heeds_increment heeded
  · exact absurd executed (untransferred x).1
  · exact absurd executed (untransferred x).2

/-! The display goes by the clipping that it was made with. -/

theorem clip_exec {after : Machine ρ} {instruction : Instruction}
    (done : machine.exec instruction = .ok after) :
    after.display.clip = machine.display.clip := by
  have kept (free : ¬ machine.Writes instruction .display) :
      after.display.clip = machine.display.clip :=
    congrArg Framebuffer.clip (kept_exec done free : Part.display.Kept machine after)
  cases instruction with
  | bare op =>
      cases op with
      | clearScreen =>
          cases done
          rfl
      | ret => exact kept nofun
  | draw x y n =>
      obtain ⟨drawn, shown, done⟩ := bind_eq_ok_iff.mp done
      cases done
      exact Framebuffer.clip_draw shown
  | _ => exact kept nofun

theorem clip_step : machine.step.2.display.clip = machine.display.clip := by
  refine step_leads (fun after => after.display.clip = machine.display.clip) (fun x _ => ?_)
    (fun _ _ => rfl) (fun _ _ => rfl) fun _ _ _ executed => ?_
  · exact congrArg Framebuffer.clip
      (kept_pollKeypad ⟨nofun, nofun⟩ : Part.display.Kept machine (machine.pollKeypad x))
  · have kept : _ = machine.advance.display.clip := clip_exec executed
    exact kept

theorem clip_serve {clip : Bool} {request : Request} (first : machine.display.clip = clip) :
    (machine.serve request).2.display.clip = clip := by
  have kept {α : Type} {outcome : Except Refusal α} {reply : α → Reply} {effect : α → Machine ρ}
      (same : ∀ result, outcome = .ok result → (effect result).display.clip = clip) :
      (machine.change outcome reply effect).2.display.clip = clip :=
    change_keeps (fun after => after.display.clip = clip) first same
  cases request with
  | step =>
      rw [serve]
      exact clip_step.trans first
  | execute cycles period =>
      exact execute_keeps (fun machine => machine.display.clip = clip)
        (fun _ same => clip_step.trans same) (fun _ same => same) cycles period machine first
  | draw index size x y =>
      exact kept fun _ drawn => (Framebuffer.clip_draw (of_mapError_eq_ok drawn)).trans first
  | setKey key pressed => exact kept fun _ _ => first
  | write8 address value => exact kept fun _ _ => first
  | write16 address value => exact kept fun _ _ => first
  | writeBlock address bytes => exact kept fun _ _ => first
  | push value => exact kept fun _ _ => first
  | pop => exact kept fun _ _ => first
  | loadRom rom => exact kept fun _ _ => first
  | _ => exact first

/-- The clipping of sprites and the depth of the stack are those that the machine was booted with:
    whatever values the settings have for them later, all sessions go the same way and tell the same.
    Where the host leaves the settings alone, the form of the shifted bit makes no difference unless
    a step shifts a bit out to the left, and the moving of the index makes none unless a step stores
    or loads registers. -/
theorem settings_reach (machine : Machine ρ) (requests : List Request) :
    (∀ (clip : Bool) (depth : Int),
      let other := machine.withSettings (machine.settings.refit clip depth)
      List.Forall₂ Reply.Alike (machine.session requests).1 (other.session requests).1 ∧
        ∃ clip depth, (other.session requests).2 =
          (machine.session requests).2.withSettings
            ((machine.session requests).2.settings.refit clip depth)) ∧
      (∀ rom settings random, boot rom settings random = .ok machine →
        (machine.session requests).2.display.clip = settings.clipSprites ∧
          (machine.session requests).2.stack.depth = settings.stackDepth) ∧
        ((∀ change, .changeSettings change ∉ requests) →
          (∀ flag : Bool,
            (∀ start ∈ machine.starts requests, ∀ x y,
              start.step.1 = .ok (some (.pair .shiftLeft x y)) → start.register x &&& 0x80 = 0) →
              (machine.withSettings
                  { machine.settings with normalizeShiftFlag := flag }).session requests =
                ((machine.session requests).1, (machine.session requests).2.withSettings
                  { (machine.session requests).2.settings with normalizeShiftFlag := flag })) ∧
            ∀ flag : Bool,
              (∀ start ∈ machine.starts requests, ∀ x,
                start.step.1 ≠ .ok (some (.register .store x)) ∧
                  start.step.1 ≠ .ok (some (.register .load x))) →
                (machine.withSettings
                    { machine.settings with incrementIndex := flag }).session requests =
                  ((machine.session requests).1, (machine.session requests).2.withSettings
                    { (machine.session requests).2.settings with incrementIndex := flag })) := by
  refine ⟨fun clip depth => ?_, fun rom settings random booted => ⟨?_, ?_⟩, fun free => ⟨?_, ?_⟩⟩
  · obtain ⟨replies, settings, ⟨clip, depth, rfl⟩, final⟩ := session_related
      (fun _ => True) Reply.Alike (fun _ => SameBut Refit)
      (fun _ _ _ _ _ related => serve_refit related) (fun request _ => trivial)
      (⟨_, ⟨clip, depth, rfl⟩, rfl⟩ : SameBut Refit machine
        (machine.withSettings (machine.settings.refit clip depth)))
    exact ⟨replies, clip, depth, final⟩
  · have kept (machine : Machine ρ) (request : Request) :
        machine.display.clip = settings.clipSprites →
          (machine.serve request).2.display.clip = settings.clipSprites := clip_serve
    refine session_keeps kept machine requests ?_
    obtain ⟨memory, _, booted⟩ := bind_eq_ok_iff.mp booted
    cases booted
    rfl
  · exact (session_keeps (fun machine request => within_serve machine request) machine requests
      (within_boot booted)).fixed
  · intro flag unshifted
    have unseen : Unseen (fun settings other => other = { settings with normalizeShiftFlag := flag })
        (machine.starts requests) machine _ :=
      ⟨⟨_, rfl, rfl⟩, fun start member settings near =>
        near ▸ indifferent_normalize (unshifted start member)⟩
    obtain ⟨replies, settings, rfl, final⟩ := session_unseen free unseen
    exact Prod.ext replies final
  · intro flag untransferred
    have unseen : Unseen (fun settings other => other = { settings with incrementIndex := flag })
        (machine.starts requests) machine _ :=
      ⟨⟨_, rfl, rfl⟩, fun start member settings near =>
        near ▸ indifferent_increment (untransferred start member)⟩
    obtain ⟨replies, settings, rfl, final⟩ := session_unseen free unseen
    exact Prod.ext replies final

/-- The program shifts a register that has its highest bit clear and stops short of storing it. -/
theorem settings_reach_clear_bit :
    ∃ machine : Machine ByteCycle,
      boot [0x60, 0x41, 0x80, 0x0E, 0xF0, 0x55] {} { values := [] } = .ok machine ∧
        let requests : List Request := [.step, .assignIndex 0xFFF, .execute 1 0]
        let final := (machine.session requests).2
        final.display.clip = true ∧ final.stack.depth = 16 ∧
          (machine.withSettings { machine.settings with normalizeShiftFlag := false }).session
              requests =
            ((machine.session requests).1,
              final.withSettings { final.settings with normalizeShiftFlag := false }) ∧
          (machine.withSettings { machine.settings with incrementIndex := true }).session requests =
            ((machine.session requests).1,
              final.withSettings { final.settings with incrementIndex := true }) := by
  obtain ⟨machine, booted, clear, taken⟩ : ∃ machine : Machine ByteCycle,
      boot [0x60, 0x41, 0x80, 0x0E, 0xF0, 0x55] {} { values := [] } = .ok machine ∧
        let starts := machine.starts [.step, .assignIndex 0xFFF, .execute 1 0]
        (∀ start ∈ starts, start.register 0 &&& 0x80 = 0) ∧
          starts.map (fun start => start.step.1) =
            [.ok (some (.immediate .load 0 0x41)), .ok (some (.pair .shiftLeft 0 0))] :=
    ⟨_, rfl, by decide +kernel⟩
  have outcomes (start) (member : start ∈ machine.starts [.step, .assignIndex 0xFFF, .execute 1 0]) :
      start.step.1 = .ok (some (.immediate .load 0 0x41)) ∨
        start.step.1 = .ok (some (.pair .shiftLeft 0 0)) := by
    simpa [taken] using List.mem_map_of_mem (f := fun start => start.step.1) member
  have reach := settings_reach machine [.step, .assignIndex 0xFFF, .execute 1 0]
  have fixed := reach.2.1 _ _ _ booted
  have free := reach.2.2 (by simp)
  refine ⟨machine, booted, fixed.1, fixed.2, free.1 false fun start member x y shifted => ?_,
    free.2 true fun start member x => ?_⟩
  · rcases outcomes start member with loads | shifts
    · cases loads.symm.trans shifted
    · cases shifts.symm.trans shifted
      exact clear start member
  · rcases outcomes start member with loads | shifts
    · rw [loads]
      exact ⟨nofun, nofun⟩
    · rw [shifts]
      exact ⟨nofun, nofun⟩

end Run

end Machine

end Chip8
