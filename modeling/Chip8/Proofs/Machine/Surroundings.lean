import Chip8.Proofs.Machine.Footprint

namespace Chip8

/-- What a machine shares with its host and what its programs are kept in. All the rest of it is
    its own. -/
structure Surroundings where
  delay : UInt8
  sound : UInt8
  keypad : Keypad
  memory : Memory
  settings : Settings

/-- What an instruction may look at in the surroundings. There is none that looks at the sound timer
    or at the settings that are taken over when a machine is booted. -/
inductive Aspect
  | delay
  | key (key : Nibble)
  | cell (address : Address)
  | shiftFlag
  | increment
  deriving DecidableEq, Repr

def Aspect.Same (aspect : Aspect) (first second : Surroundings) : Prop :=
  match aspect with
  | delay => second.delay = first.delay
  | key k => second.keypad.isPressed k = first.keypad.isPressed k
  | cell address => second.memory.cell address = first.memory.cell address
  | shiftFlag => second.settings.normalizeShiftFlag = first.settings.normalizeShiftFlag
  | increment => second.settings.incrementIndex = first.settings.incrementIndex

theorem Aspect.same_rfl {aspect : Aspect} {surroundings : Surroundings} :
    aspect.Same surroundings surroundings := by
  cases aspect <;> rfl

namespace Memory

variable {memory other : Memory} {start width : Nat}

/-- Where all of a block is in memory, the cells that it consists of. -/
def Covers (start width : Nat) (address : Address) : Prop :=
  InRange start width ∧ start ≤ address.val ∧ address.val < start + width

theorem readBlock_congr
    (same : ∀ address, Covers start width address → other.cell address = memory.cell address) :
    other.readBlock start width = memory.readBlock start width := by
  rw [readBlock, readBlock, access, access]
  by_cases range : InRange start width
  · have stop : blockEnd start width = start + width := by
      have positive : ¬ (start : Int) + width < 0 := by omega
      rw [blockEnd, if_neg positive]
      omega
    have room : start + width ≤ 4096 := by
      have upper := range.2
      omega
    rw [if_pos range, if_pos range, stop, Int.toNat_natCast]
    refine congrArg (fun cells : Array UInt8 => Except.ok cells.toList) (Array.ext ?_ ?_)
    · simp
    · intro place here _
      have inside : place < width := by
        simp only [Array.size_extract, Vector.size_toArray] at here
        omega
      have cell := same ⟨start + place, by omega⟩ ⟨range, by simp, by simpa using inside⟩
      simpa [Memory.cell] using cell
  · rw [if_neg range, if_neg range]

theorem access_bind {α β : Type} {address size : Int} {result : α} (change : α → β) :
    (access address size result >>= fun value => .ok (change value)) =
      access address size (change result) := by
  rw [access, access]
  split <;> rfl

theorem access_map {α β : Type} {address size : Int} {result : α} (change : α → β) :
    (access address size result).map change = access address size (change result) := by
  rw [access, access]
  split <;> rfl

end Memory

namespace Machine

/-! A machine in other surroundings. As long as these differ in nothing that it looks at, it goes the
    same way and leaves the same traces in them. -/

variable {ρ : Type} {machine : Machine ρ} {scene : Surroundings} {x y : Register}

def surroundings (machine : Machine ρ) : Surroundings where
  delay := machine.delay
  sound := machine.sound
  keypad := machine.keypad
  memory := machine.memory
  settings := machine.settings

def amid (machine : Machine ρ) (scene : Surroundings) : Machine ρ :=
  { machine with
    delay := scene.delay
    sound := scene.sound
    keypad := scene.keypad
    memory := scene.memory
    settings := scene.settings }

theorem amid_surroundings : machine.amid machine.surroundings = machine := rfl

/-- What an instruction looks at in the surroundings. Where it is refused it has looked at nothing,
    and a shift looks at its setting only for a bit that was lost. -/
def Heeds (machine : Machine ρ) (instruction : Instruction) (aspect : Aspect) : Prop :=
  match aspect, instruction with
  | .delay, .register .readDelay _ => True
  | .key key, .register .skipPressed x | .key key, .register .skipReleased x =>
      key = .ofNat (machine.register x).toNat
  | .cell address, .draw _ _ n => Memory.Covers machine.index.toNat n.val address
  | .cell address, .register .load x => Memory.Covers machine.index.toNat (x.val + 1) address
  | .shiftFlag, .pair .shiftLeft x _ => machine.register x &&& 0x80 ≠ 0
  | .increment, .register .store x | .increment, .register .load x =>
      Memory.InRange machine.index.toNat (x.val + 1 : Nat)
  | _, _ => False

/-- The bytes that an instruction puts into memory, from the index on. -/
def stored (machine : Machine ρ) : Instruction → List UInt8
  | .register .digits x =>
      let value := machine.register x
      [value / 100, value / 10 % 10, value % 10]
  | .register .store x => machine.registers.toList.take (x.val + 1)
  | _ => []

end Machine

/-- The surroundings after an instruction. -/
def Surroundings.follow {ρ : Type} (scene : Surroundings) (machine : Machine ρ)
    (instruction : Instruction) : Surroundings :=
  { scene with
    delay := match instruction with
      | .register .setDelay x => machine.register x
      | _ => scene.delay
    sound := match instruction with
      | .register .setSound x => machine.register x
      | _ => scene.sound
    memory := scene.memory.put machine.index.toNat (machine.stored instruction) }

namespace Machine

variable {ρ : Type} {machine : Machine ρ} {scene : Surroundings} {x y : Register}

section Heeds

variable {instruction : Instruction} {key : Nibble}

theorem of_heeds_delay (heeded : machine.Heeds instruction .delay) :
    ∃ x, instruction = .register .readDelay x := by
  cases instruction with
  | register op x =>
      cases op with
      | readDelay => exact ⟨x, rfl⟩
      | _ => cases heeded
  | _ => cases heeded

theorem of_heeds_key (heeded : machine.Heeds instruction (.key key)) :
    ∃ x, (instruction = .register .skipPressed x ∨ instruction = .register .skipReleased x) ∧
      key = .ofNat (machine.register x).toNat := by
  cases instruction with
  | register op x =>
      cases op with
      | skipPressed => exact ⟨x, Or.inl rfl, heeded⟩
      | skipReleased => exact ⟨x, Or.inr rfl, heeded⟩
      | _ => cases heeded
  | _ => cases heeded

theorem of_heeds_shiftFlag (heeded : machine.Heeds instruction .shiftFlag) :
    ∃ x y, instruction = .pair .shiftLeft x y ∧ machine.register x &&& 0x80 ≠ 0 := by
  cases instruction with
  | pair op x y =>
      cases op with
      | shiftLeft => exact ⟨x, y, rfl, heeded⟩
      | _ => cases heeded
  | _ => cases heeded

theorem of_heeds_increment (heeded : machine.Heeds instruction .increment) :
    ∃ x, instruction = .register .store x ∨ instruction = .register .load x := by
  cases instruction with
  | register op x =>
      cases op with
      | store => exact ⟨x, Or.inl rfl⟩
      | load => exact ⟨x, Or.inr rfl⟩
      | _ => cases heeded
  | _ => cases heeded

end Heeds

theorem skipIf_amid (condition : Bool) :
    (machine.amid scene).skipIf condition =
      (machine.skipIf condition).amid scene := by
  cases condition <;> rfl

theorem execBare_amid (op : BareOp) :
    (machine.amid scene).execBare op =
      (machine.execBare op).map fun after =>
        after.amid (scene.follow machine (.bare op)) := by
  cases op with
  | clearScreen => rfl
  | ret =>
      rw [execBare, execBare, show (machine.amid scene).stack = machine.stack from rfl]
      cases machine.stack.pop <;> rfl

theorem execAddress_amid (op : AddressOp) (addr : Address) :
    (machine.amid scene).execAddress addr op =
      (machine.execAddress addr op).map fun after =>
        after.amid (scene.follow machine (.address op addr)) := by
  cases op with
  | call =>
      rw [execAddress, execAddress,
        show (machine.amid scene).stack.push (machine.amid scene).pc =
          machine.stack.push machine.pc from rfl]
      cases machine.stack.push machine.pc <;> rfl
  | _ => rfl

theorem execImmediate_amid [ByteSource ρ] (op : ImmediateOp) (byte : UInt8) :
    (machine.amid scene).execImmediate x byte op =
      (machine.execImmediate x byte op).amid
        (scene.follow machine (.immediate op x byte)) := by
  cases op with
  | skipEqual | skipUnequal => exact skipIf_amid _
  | _ => rfl

theorem execPair_amid {op : PairOp}
    (same : ∀ aspect, machine.Heeds (.pair op x y) aspect →
      aspect.Same machine.surroundings scene) :
    (machine.amid scene).execPair x y op =
      (machine.execPair x y op).amid (scene.follow machine (.pair op x y)) := by
  cases op with
  | skipEqual | skipUnequal => exact skipIf_amid _
  | shiftLeft =>
      have flag :
          (if scene.settings.normalizeShiftFlag then (machine.register x &&& 0x80) >>> 7
            else machine.register x &&& 0x80) =
          if machine.settings.normalizeShiftFlag then (machine.register x &&& 0x80) >>> 7
            else machine.register x &&& 0x80 := by
        by_cases none : machine.register x &&& 0x80 = 0
        · simp [none]
        · rw [show scene.settings.normalizeShiftFlag = machine.settings.normalizeShiftFlag
            from same .shiftFlag none]
      exact congrArg
        (fun carried => (machine.setWithFlag x (machine.register x <<< 1) carried).amid
          scene) flag
  | _ => rfl

theorem indexAfterTransfer_amid
    (same : scene.settings.incrementIndex = machine.settings.incrementIndex) :
    (machine.amid scene).indexAfterTransfer x = machine.indexAfterTransfer x := by
  rw [indexAfterTransfer, indexAfterTransfer,
    show (machine.amid scene).settings.incrementIndex = machine.settings.incrementIndex
      from same]
  rfl

theorem isPressed_amid (same : (Aspect.key (.ofNat (machine.register x).toNat)).Same
    machine.surroundings scene) :
    (machine.amid scene).keypad.isPressed (execRegister.key x (machine.amid scene)) =
      machine.keypad.isPressed (execRegister.key x machine) :=
  same

theorem execRegister_amid {op : RegisterOp}
    (same : ∀ aspect, machine.Heeds (.register op x) aspect →
      aspect.Same machine.surroundings scene) :
    (machine.amid scene).execRegister x op =
      (machine.execRegister x op).map fun after =>
        after.amid (scene.follow machine (.register op x)) := by
  cases op with
  | skipPressed =>
      have pressed := isPressed_amid (same (.key _) rfl)
      rw [execRegister, execRegister, pressed, skipIf_amid]
      rfl
  | skipReleased =>
      have pressed := isPressed_amid (same (.key _) rfl)
      rw [execRegister, execRegister, pressed, skipIf_amid]
      rfl
  | readDelay =>
      have delay : scene.delay = machine.delay := same .delay trivial
      exact congrArg (fun value => Except.ok ((machine.setRegister x value).amid scene)) delay
  | digits =>
      rw [execRegister, execRegister, Memory.writeBlock, Memory.writeBlock, Memory.access_bind,
        Memory.access_bind, Memory.access_map]
      rfl
  | store =>
      rw [execRegister, execRegister, Memory.writeBlock, Memory.writeBlock, Memory.access_bind,
        Memory.access_bind, Memory.access_map]
      refine Memory.access_congr fun range => ?_
      rw [length_lowest] at range
      rw [indexAfterTransfer_amid (same .increment range)]
      rfl
  | load =>
      have read : (machine.amid scene).memory.readBlock machine.index.toNat (x.val + 1 : Nat) =
          machine.memory.readBlock machine.index.toNat (x.val + 1 : Nat) :=
        Memory.readBlock_congr fun address covered => same (.cell address) covered
      rw [execRegister, execRegister, show (machine.amid scene).index = machine.index from rfl, read,
        Memory.readBlock, Memory.access_bind, Memory.access_bind, Memory.access_map]
      refine Memory.access_congr fun range => ?_
      rw [indexAfterTransfer_amid (same .increment range)]
      rfl
  | _ => rfl

theorem execDraw_amid {n : Nibble}
    (same : ∀ aspect, machine.Heeds (.draw x y n) aspect →
      aspect.Same machine.surroundings scene) :
    (machine.amid scene).execDraw x y n =
      (machine.execDraw x y n).map fun after =>
        after.amid (scene.follow machine (.draw x y n)) := by
  have read : (machine.amid scene).memory.readBlock machine.index.toNat n.val =
      machine.memory.readBlock machine.index.toNat n.val :=
    Memory.readBlock_congr fun address covered => same (.cell address) covered
  rw [execDraw, execDraw, Framebuffer.draw, Framebuffer.draw,
    show (machine.amid scene).index = machine.index from rfl, read]
  cases machine.memory.readBlock machine.index.toNat n.val <;> rfl

theorem exec_amid [ByteSource ρ] {instruction : Instruction}
    (same : ∀ aspect, machine.Heeds instruction aspect →
      aspect.Same machine.surroundings scene) :
    (machine.amid scene).exec instruction =
      (machine.exec instruction).map fun after =>
        after.amid (scene.follow machine instruction) := by
  cases instruction with
  | bare op => exact execBare_amid op
  | address op addr => exact execAddress_amid op addr
  | immediate op x byte => exact congrArg Except.ok (execImmediate_amid op byte)
  | draw x y n => exact execDraw_amid same
  | pair op x y => exact congrArg Except.ok (execPair_amid same)
  | register op x => exact execRegister_amid same
  | invalid word => rfl

/-- What a step looks at in the surroundings: the keys where the machine waits for one, and else the
    word that it fetches and what the instruction heeds. -/
def Inspects (machine : Machine ρ) (aspect : Aspect) : Prop :=
  match machine.waiting with
  | some _ => ∃ key, aspect = .key key
  | none =>
      ∃ word, machine.fetch = .ok word ∧
        (aspect = .cell (.ofNat machine.pc.toNat) ∨ aspect = .cell (.ofNat (machine.pc.toNat + 1)) ∨
          machine.advance.Heeds (Instruction.decode word.toNat) aspect)

end Machine

/-- The surroundings after a step. -/
def Surroundings.past {ρ : Type} [ByteSource ρ] (scene : Surroundings) (machine : Machine ρ) :
    Surroundings :=
  match machine.step.1 with
  | .ok (some instruction) => scene.follow machine instruction
  | _ => scene

namespace Machine

variable {ρ : Type} {machine : Machine ρ} {scene : Surroundings} {x : Register}

theorem inspects_waiting {aspect : Aspect} (waiting : machine.waiting = some x) :
    machine.Inspects aspect ↔ ∃ key, aspect = .key key := by
  rw [Inspects, waiting]

theorem inspects_fetched {aspect : Aspect} {word : UInt16} (free : machine.waiting = none)
    (fetched : machine.fetch = .ok word) :
    machine.Inspects aspect ↔
      aspect = .cell (.ofNat machine.pc.toNat) ∨ aspect = .cell (.ofNat (machine.pc.toNat + 1)) ∨
        machine.advance.Heeds (Instruction.decode word.toNat) aspect := by
  rw [Inspects, free]
  simp only [fetched, Except.ok.injEq, exists_eq_left']

theorem pollKeypad_amid (same : ∀ key, (Aspect.key key).Same machine.surroundings scene) :
    (machine.amid scene).pollKeypad x = (machine.pollKeypad x).amid scene := by
  have first : scene.keypad.firstPressed = machine.keypad.firstPressed := by
    rw [Keypad.firstPressed, Keypad.firstPressed,
      show scene.keypad.isPressed = machine.keypad.isPressed from funext same]
  rw [pollKeypad, pollKeypad, show (machine.amid scene).keypad = scene.keypad from rfl, first]
  cases machine.keypad.firstPressed <;> rfl

theorem unfetched_amid {fault : Fault} (failed : machine.fetch = .error fault) :
    (machine.amid scene).fetch = .error fault := by
  rw [fetch, Memory.read16, Memory.access_eq_error_iff] at failed ⊢
  exact failed

theorem fetch_amid {word : UInt16} (fetched : machine.fetch = .ok word)
    (high : (Aspect.cell (.ofNat machine.pc.toNat)).Same machine.surroundings scene)
    (low : (Aspect.cell (.ofNat (machine.pc.toNat + 1))).Same machine.surroundings scene) :
    (machine.amid scene).fetch = .ok word := by
  have first : scene.memory.cell (.ofInt machine.pc.toNat) =
      machine.memory.cell (.ofInt machine.pc.toNat) := high
  have second : scene.memory.cell (.ofInt (machine.pc.toNat + 1)) =
      machine.memory.cell (.ofInt (machine.pc.toNat + 1)) := low
  rw [fetch, show (machine.amid scene).pc = machine.pc from rfl,
    show (machine.amid scene).memory = scene.memory from rfl, Memory.read16, first, second]
  exact fetched

section Step

variable [ByteSource ρ]

/-- A step in other surroundings that differ in nothing it looks at has the same outcome, does the
    same to the machine and leaves the same traces. -/
theorem step_amid (machine : Machine ρ) (scene : Surroundings)
    (same : ∀ aspect, machine.Inspects aspect → aspect.Same machine.surroundings scene) :
    (machine.amid scene).step = (machine.step.1, machine.step.2.amid (scene.past machine)) := by
  cases waiting : machine.waiting with
  | some x =>
      have keys : ∀ key, (Aspect.key key).Same machine.surroundings scene := fun key =>
        same _ ((inspects_waiting waiting).mpr ⟨key, rfl⟩)
      have elsewhere : (machine.amid scene).waiting = some x := waiting
      rw [Surroundings.past, step_waiting elsewhere, step_waiting waiting, pollKeypad_amid keys]
  | none =>
      have elsewhere : (machine.amid scene).waiting = none := waiting
      cases fetched : machine.fetch with
      | error fault =>
          rw [Surroundings.past, step_unfetched elsewhere (unfetched_amid fetched),
            step_unfetched waiting fetched]
      | ok word =>
          have seen {aspect : Aspect} : machine.Inspects aspect ↔ _ :=
            inspects_fetched waiting fetched
          have fetch : (machine.amid scene).fetch = .ok word :=
            fetch_amid fetched (same _ (seen.mpr (Or.inl rfl)))
              (same _ (seen.mpr (Or.inr (Or.inl rfl))))
          have executed : (machine.advance.amid scene).exec (Instruction.decode word.toNat) = _ :=
            exec_amid fun aspect heeded => same aspect (seen.mpr (Or.inr (Or.inr heeded)))
          have advanced : (machine.amid scene).advance = machine.advance.amid scene := rfl
          rw [← advanced] at executed
          cases outcome : machine.advance.exec (Instruction.decode word.toNat) with
          | error fault =>
              rw [outcome] at executed
              rw [Surroundings.past, step_refused elsewhere fetch executed,
                step_refused waiting fetched outcome]
              rfl
          | ok after =>
              rw [outcome] at executed
              rw [Surroundings.past, step_executed elsewhere fetch executed,
                step_executed waiting fetched outcome]
              rfl

theorem surroundings_step : machine.step.2.surroundings = machine.surroundings.past machine := by
  have moved := step_amid machine machine.surroundings fun aspect _ => Aspect.same_rfl
  rw [amid_surroundings] at moved
  exact congrArg (fun step => surroundings step.2) moved

/-- A change of the surroundings that the step does not see and that what it leaves in them does not
    cover may as well be made after the step. -/
theorem step_change (change : Surroundings → Surroundings)
    (same : ∀ aspect, machine.Inspects aspect →
      aspect.Same machine.surroundings (change machine.surroundings))
    (apart : ∀ instruction, machine.step.1 = .ok (some instruction) →
      (change machine.surroundings).follow machine instruction =
        change (machine.surroundings.follow machine instruction)) :
    (machine.amid (change machine.surroundings)).step =
      (machine.step.1, machine.step.2.amid (change machine.step.2.surroundings)) := by
  have past : (change machine.surroundings).past machine =
      change (machine.surroundings.past machine) := by
    rw [Surroundings.past, Surroundings.past]
    split
    · next instruction executed => exact apart instruction executed
    · rfl
  rw [step_amid _ _ same, surroundings_step, past]

theorem exec_of_heeds {instruction : Instruction} {aspect : Aspect}
    (heeded : machine.Heeds instruction aspect) :
    ∃ after, machine.exec instruction = .ok after := by
  rw [exists_eq_ok_iff]
  intro fault failed
  have refused := exec_eq_error_iff.mp failed
  cases instruction with
  | bare op => cases aspect <;> exact heeded
  | address op addr => cases aspect <;> exact heeded
  | immediate op x byte => exact refused
  | draw x y n =>
      cases aspect with
      | cell address => exact refused.1 heeded.1
      | _ => exact heeded
  | pair op x y => exact refused
  | register op x =>
      cases op with
      | digits => cases aspect <;> exact heeded
      | store =>
          cases aspect with
          | increment => exact refused.1 heeded
          | _ => exact heeded
      | load =>
          cases aspect with
          | cell address => exact refused.1 heeded.1
          | increment => exact refused.1 heeded
          | _ => exact heeded
      | _ => exact refused
  | invalid word => cases aspect <;> exact heeded

/-- A step looks at the keys, at the word at the program counter, or at what the instruction heeds
    that it executes. -/
theorem Inspects.cases {aspect : Aspect} (inspected : machine.Inspects aspect) :
    ((∃ x, machine.waiting = some x) ∧ ∃ key, aspect = .key key) ∨
      machine.waiting = none ∧ machine.pc.toNat ≤ 0xFFE ∧
        (aspect = .cell (.ofNat machine.pc.toNat) ∨ aspect = .cell (.ofNat (machine.pc.toNat + 1)) ∨
          ∃ instruction, machine.step.1 = .ok (some instruction) ∧
            machine.Heeds instruction aspect) := by
  cases waiting : machine.waiting with
  | some x => exact Or.inl ⟨⟨x, rfl⟩, (inspects_waiting waiting).mp inspected⟩
  | none =>
      rw [Inspects, waiting] at inspected
      obtain ⟨word, fetched, seen⟩ := inspected
      refine Or.inr ⟨rfl, fetch_inside fetched, seen.imp_right (Or.imp_right fun heeded => ?_)⟩
      obtain ⟨after, executed⟩ := exec_of_heeds heeded
      exact ⟨_, congrArg Prod.fst (step_executed waiting fetched executed), heeded⟩

/-- What is neither a cell nor looked at by a machine that waits is looked at by an instruction. -/
theorem Inspects.executed {aspect : Aspect} (inspected : machine.Inspects aspect)
    (awake : ∀ key, aspect = .key key → machine.waiting = none)
    (other : ∀ address, aspect ≠ .cell address) :
    ∃ instruction, machine.step.1 = .ok (some instruction) ∧ machine.Heeds instruction aspect := by
  rcases inspected.cases with ⟨⟨x, waits⟩, key, same⟩ | ⟨_, _, same | same | executed⟩
  · cases (awake key same).symm.trans waits
  · exact absurd same (other _)
  · exact absurd same (other _)
  · exact executed

end Step

end Machine

end Chip8
