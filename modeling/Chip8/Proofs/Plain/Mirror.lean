import Chip8.Proofs.Machine.Session
import Chip8.Proofs.Plain.Handlers

namespace Chip8.Plain

/-! Steps, runs and whole sessions, plain and in range. -/

open Act

variable {ρ : Type} {machine : Machine ρ}

theorem isSome_waiting (machine : Machine ρ) : machine.plain.waiting.isSome = machine.blocked :=
  Option.isSome_map

theorem pollKeypad_plain {x : Register} (waiting : machine.waiting = some x) :
    Plain.pollKeypad machine.plain = (.ok (), (machine.pollKeypad x).plain) := by
  have awaited : machine.plain.waiting = some (x.val : Int) := by
    rw [Machine.plain, waiting]
    rfl
  rw [Plain.pollKeypad, bind_of_ok _ firstPressed_plain, read_bind, awaited, Machine.pollKeypad]
  cases machine.keypad.firstPressed with
  | none => rfl
  | some key =>
      have number : (key.val : Int) = (UInt8.ofNat key.val).toNat := by
        have bound := key.isLt
        rw [UInt8.toNat_ofNat']
        omega
      change (setRegister x.val key.val >>= _) machine.plain = _
      rw [bind_of_ok _ (setRegister_plain x number)]
      rfl

theorem advance_plain :
    setPc ((machine.plain.pc + 2) % 0x10000) machine.plain = (.ok (), machine.advance.plain) := by
  have moved := add_address machine.pc 2
  change setPc (((machine.pc.toNat : Int) + 2) % 0x10000) machine.plain = _
  rw [show (2 : Int) = (2 : UInt16).toNat from rfl, moved]
  rfl

theorem step_plain [ByteSource ρ] (machine : Machine ρ) :
    Plain.step machine.plain = (machine.step.1.mapError .fault, machine.step.2.plain) := by
  rw [Plain.step, read_bind, Machine.step]
  cases waiting : machine.waiting with
  | some x =>
      have blocked : machine.plain.waiting.isSome = true := by
        rw [isSome_waiting, Machine.blocked, waiting]
        rfl
      rw [if_pos blocked, bind_of_ok _ (pollKeypad_plain waiting)]
      rfl
  | none =>
      have free : ¬ machine.plain.waiting.isSome = true := by
        rw [isSome_waiting, Machine.blocked, waiting]
        exact Bool.false_ne_true
      have fetched : read16 machine.plain.pc machine.plain = mirror machine machine.fetch _ _ :=
        read16_plain machine.pc.toNat
      rw [if_neg free, read_bind]
      cases fetch : machine.fetch with
      | error fault =>
          rw [fetch] at fetched
          exact bind_of_error _ fetched
      | ok word =>
          have executed : Plain.exec _ machine.advance.plain = _ :=
            exec_plain (Instruction.decode word.toNat)
          rw [fetch] at fetched
          rw [bind_of_ok _ fetched, bind_of_ok _ advance_plain]
          dsimp only
          cases outcome : machine.advance.exec (Instruction.decode word.toNat) with
          | error fault =>
              rw [outcome] at executed
              exact bind_of_error _ executed
          | ok after =>
              rw [outcome] at executed
              rw [bind_of_ok _ executed]
              rfl

/-! Runs. -/

theorem tick_byte (timer : UInt8) :
    (if (timer.toNat : Int) > 0 then (timer.toNat : Int) - 1 else (timer.toNat : Int)) =
      (if timer > 0 then timer - 1 else 0).toNat := by
  by_cases running : timer > 0
  · have positive : (0 : Nat) < timer.toNat := running
    have before := sub_byte timer 1
    have bound := timer.toNat_lt
    rw [if_pos (by omega), if_pos running, ← before]
    change _ = ((timer.toNat : Int) - 1) % 0x100
    omega
  · have stopped : ¬ (0 : Nat) < timer.toNat := running
    rw [if_neg (by omega), if_neg running, Nat.eq_zero_of_not_pos stopped]
    rfl

theorem tickTimers_plain : tickTimers machine.plain = (.ok (), machine.tickTimers.plain) := by
  have delay := tick_byte machine.delay
  have sound := tick_byte machine.sound
  change (Except.ok (), { machine.plain with
    delay := if (machine.delay.toNat : Int) > 0 then (machine.delay.toNat : Int) - 1 else
      (machine.delay.toNat : Int)
    sound := if (machine.sound.toNat : Int) > 0 then (machine.sound.toNat : Int) - 1 else
      (machine.sound.toNat : Int) }) = _
  rw [delay, sound]
  rfl

theorem tickAfter_plain (period : Int) (steps : Nat) :
    tickAfter period steps machine.plain = (.ok (), (machine.tickAfter period steps).plain) := by
  have same : Machine.ticksAfter period steps = true ↔ period ≠ 0 ∧ (steps : Int) % period = 0 := by
    rw [Machine.ticksAfter, Bool.and_eq_true, bne_iff_ne, beq_iff_eq]
  rw [tickAfter, Machine.tickAfter]
  by_cases due : Machine.ticksAfter period steps = true
  · rw [if_pos due, if_pos (same.mp due)]
    exact tickTimers_plain
  · rw [if_neg due, if_neg (mt same.mpr due)]
    rfl

theorem executeFrom_plain [ByteSource ρ] (period : Int) (taken left : Nat) (machine : Machine ρ) :
    Plain.executeFrom period taken left machine.plain =
      (((Machine.executeFrom period taken left machine).1.map Int.ofNat).mapError .fault,
        (Machine.executeFrom period taken left machine).2.plain) := by
  induction left generalizing taken machine with
  | zero => rfl
  | succ left ih =>
      have stepped := step_plain machine
      rw [Plain.executeFrom, Machine.executeFrom]
      cases outcome : machine.step with
      | mk result after =>
          rw [outcome] at stepped
          cases result with
          | error fault => exact bind_of_error _ stepped
          | ok instruction =>
              rw [bind_of_ok _ stepped, bind_of_ok _ (tickAfter_plain period (taken + 1)),
                read_bind]
              dsimp only
              rw [isSome_waiting]
              cases (after.tickAfter period (taken + 1)).blocked with
              | false => exact ih _ _
              | true => rfl

theorem execute_plain [ByteSource ρ] (cycles period : Int) :
    Plain.execute cycles period machine.plain =
      ((machine.execute cycles period).1.mapError .fault,
        (machine.execute cycles period).2.plain) := by
  rw [Plain.execute, Machine.execute]
  by_cases none : cycles ≤ 0
  · rw [if_pos none, if_pos none]
    rfl
  · rw [if_neg none, if_neg none]
    exact executeFrom_plain period 0 cycles.toNat machine

/-! Sessions. -/

theorem initial_cells :
    splice (List.replicate 4096 0) 0 Memory.font.length (ofBytes Memory.font) =
      ofBytes Memory.initial.cells.toList := by
  have stored := splice_cells ⟨Vector.replicate 4096 0⟩ 0 Memory.font (by decide)
  have zeros : ofBytes (Vector.replicate 4096 (0 : UInt8)).toList = List.replicate 4096 0 := by
    rw [ofBytes, Vector.toList_replicate, List.map_replicate]
    rfl
  rw [zeros, Nat.zero_add] at stored
  exact stored

theorem dark_rows :
    List.replicate 32 (List.replicate 64 (0 : Int)) =
      (Vector.replicate 32 (0 : BitVec 64)).toList.map ofPixels := by
  rw [Vector.toList_replicate, List.map_replicate]
  exact congrArg (List.replicate 32) (ofPixels_fill false).symm

theorem boot_plain (rom : List UInt8) (settings : Settings) (random : ρ) :
    Plain.boot rom settings random =
      ((Machine.boot rom settings random).map Machine.plain).mapError .fault := by
  let blank : Machine ρ := {
    memory := Memory.initial
    stack := { depth := settings.stackDepth }
    display := { clip := settings.clipSprites }
    random
    settings }
  have loaded : loadRom (ofBytes rom) blank.plain =
      mirror blank (Memory.initial.loadRom rom) (fun _ => ()) fun memory => { blank with memory } :=
    loadRom_plain rom
  have same : blank.plain = {
      cells := splice (List.replicate 4096 0) 0 Memory.font.length (ofBytes Memory.font)
      depth := settings.stackDepth
      clip := settings.clipSprites
      random
      settings } := by
    rw [initial_cells]
    simp only [Machine.plain, blank, Framebuffer.plainRows, ← dark_rows]
    rfl
  rw [Plain.boot, ← same, loaded, Machine.boot]
  cases Memory.initial.loadRom rom <;> rfl

section Replies

variable {α β : Type}

theorem answer_plain {act : Act ρ α} {outcome : Except Fault α} {after : Machine ρ}
    (answer : α → Reply) (done : act machine.plain = (outcome.mapError .fault, after.plain)) :
    (act >>= fun value => pure (answer value)) machine.plain =
      ((outcome.map answer).mapError .fault, after.plain) := by
  cases outcome with
  | error fault => exact bind_of_error _ done
  | ok result => exact bind_of_ok _ done

/-- A request served by an operation that either reports a fault or happens. -/
theorem change_plain {act : Act ρ β} {outcome : Except Fault α} {reply : α → β}
    {effect : α → Machine ρ} (answer : β → Reply)
    (done : act machine.plain = mirror machine outcome reply effect) :
    (act >>= fun value => pure (answer value)) machine.plain =
      ((machine.change (outcome.mapError .fault) (fun result => answer (reply result)) effect).1,
        (machine.change (outcome.mapError .fault)
          (fun result => answer (reply result)) effect).2.plain) := by
  cases outcome with
  | error fault => exact bind_of_error _ done
  | ok result => exact bind_of_ok _ done

theorem inquire_plain {act : Act ρ β} {outcome : Except Fault α} {reply : α → β}
    {answer : β → Reply} {shown : α → Reply} (same : ∀ result, answer (reply result) = shown result)
    (done : act machine.plain = mirror machine outcome reply fun _ => machine) :
    (act >>= fun value => pure (answer value)) machine.plain =
      ((machine.inquire (outcome.mapError .fault) shown).1, machine.plain) := by
  cases outcome with
  | error fault => exact bind_of_error _ done
  | ok result =>
      rw [bind_of_ok _ done, same]
      rfl

end Replies

theorem serve_plain [ByteSource ρ] (machine : Machine ρ) (request : Request) :
    Plain.serve request machine.plain =
      ((machine.serve request).1, (machine.serve request).2.plain) := by
  cases request with
  | step => exact answer_plain .executed (step_plain machine)
  | execute cycles period => exact answer_plain .number (execute_plain cycles period)
  | tick => exact bind_of_ok _ tickTimers_plain
  | assignPc value => rfl
  | assignIndex value => rfl
  | assignDelay value => rfl
  | assignSound value => rfl
  | assignRegister x value => exact bind_of_ok _ (setRegister_plain x rfl)
  | changeSettings change => rfl
  | setKey key pressed =>
      have done : Plain.setKey key pressed machine.plain = _ := setKey_plain key pressed
      rw [Machine.serve]
      cases outcome : machine.keypad.setKeyPressed key pressed with
      | error refusal =>
          rw [outcome] at done
          exact bind_of_error _ done
      | ok keypad =>
          rw [outcome] at done
          exact bind_of_ok _ done
  | keyPressed key =>
      have done : Plain.keyPressed key machine.plain = _ := keyPressed_plain key
      rw [Machine.serve]
      cases outcome : machine.keypad.keyPressed key with
      | error refusal =>
          rw [outcome] at done
          exact bind_of_error _ done
      | ok pressed =>
          rw [outcome] at done
          exact bind_of_ok _ done
  | firstPressed =>
      have same : (machine.keypad.firstPressed.map fun key => (key.val : Int)).map
          (fun key => Nibble.ofNat key.toNat) = machine.keypad.firstPressed := by
        rw [Option.map_map]
        refine (Option.map_congr fun key _ => Fin.ext ?_).trans Option.map_id'
        exact Nat.mod_eq_of_lt key.isLt
      rw [Plain.serve, bind_of_ok _ firstPressed_plain, same]
      rfl
  | read8 address => exact inquire_plain (fun _ => rfl) (read8_plain address)
  | read16 address => exact inquire_plain (fun _ => rfl) (read16_plain address)
  | write8 address value => exact change_plain (fun _ => .done) (write8_plain address value)
  | write16 address value => exact change_plain (fun _ => .done) (write16_plain address value)
  | readBlock address size =>
      exact inquire_plain (fun block => congrArg Reply.bytes (ofInt_ofBytes block))
        (readBlock_plain address size)
  | writeBlock address block => exact change_plain (fun _ => .done) (writeBlock_plain address block)
  | push value => exact change_plain (fun _ => .done) (push_plain value)
  | pop => exact change_plain .number pop_plain
  | loadRom rom => exact change_plain (fun _ => .done) (loadRom_plain rom)
  | clear => exact bind_of_ok _ (fill_plain 0)
  | fill value => exact bind_of_ok _ (fill_plain value)
  | pixel x y =>
      have column : x % 64 = ((x % 64).toNat : Nat) := by omega
      have row : y % 32 = ((Fin.ofNat 32 (y % 32).toNat).val : Nat) := by
        rw [Fin.val_ofNat]
        omega
      have lit :
          (if machine.display.isSet (x % 64).toNat (Fin.ofNat 32 (y % 32).toNat) then 1 else 0) =
            ((machine.display.pixel x y).toNat : Int) := by
        rw [Framebuffer.pixel]
        cases machine.display.isSet (x % 64).toNat (Fin.ofNat 32 (y % 32).toNat) <;> rfl
      have inside : (x % 64).toNat < 64 := by omega
      rw [Plain.serve, column, row, bind_of_ok _ (pixel_plain inside _), lit]
      rfl
  | draw index size x y => exact change_plain .truth (draw_plain index size x y)
  | toText on off =>
      rw [Plain.serve, read_bind, toText_plain]
      rfl
  | toRgba on off =>
      rw [Plain.serve, read_bind, toRgba_plain, Machine.serve]
      cases machine.display.toRgba on off with
      | error refusal => rfl
      | ok values =>
          change (Except.ok (Reply.bytes ((ofBytes values).map UInt8.ofInt)), _) = _
          rw [ofInt_ofBytes]
          rfl

/-! A session goes on after requests that are refused. -/

/-- The replies to some requests and the machine after them. -/
def session [ByteSource ρ] (machine : Plain ρ) :
    List Request → List (Except Refusal Reply) × Plain ρ
  | [] => ([], machine)
  | request :: rest =>
      let (reply, after) := serve request machine
      let (replies, final) := session after rest
      (reply :: replies, final)

theorem session_plain [ByteSource ρ] (machine : Machine ρ) (requests : List Request) :
    Plain.session machine.plain requests =
      ((machine.session requests).1, (machine.session requests).2.plain) := by
  induction requests generalizing machine with
  | nil => rfl
  | cons request rest ih =>
      rw [session, Machine.session, serve_plain]
      dsimp only
      rw [ih]

end Chip8.Plain
