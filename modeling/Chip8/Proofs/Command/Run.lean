import Chip8.Command.Run
import Chip8.Proofs.Command.Writing
import Chip8.Proofs.Plain.Safety

namespace Chip8

namespace Fault

/-- What is wrong with the machine rather than with its program. -/
inductive OfMachine : Fault → Prop
  | memory (address : Int) : OfMachine (.memoryViolation address)
  | overflow (depth : Int) : OfMachine (.stackOverflow depth)
  | underflow : OfMachine .stackUnderflow

/-- The code of a run that the fault halts. A number that cannot be told halts none: it breaks the
    command off. -/
def exitCode : Fault → Nat
  | invalidInstruction _ _ => 2
  | digitLimit => 1
  | _ => 100

variable {fault : Fault}

theorem exitCode_eq_two_iff :
    fault.exitCode = 2 ↔ ∃ word address, fault = .invalidInstruction word address := by
  cases fault <;> simp [exitCode]

theorem exitCode_eq_hundred_iff :
    fault.exitCode = 100 ↔ (∃ size, fault = .romTooLarge size) ∨ fault.OfMachine := by
  constructor
  · intro hundred
    cases fault with
    | memoryViolation address => exact Or.inr (.memory address)
    | stackOverflow depth => exact Or.inr (.overflow depth)
    | stackUnderflow => exact Or.inr .underflow
    | romTooLarge size => exact Or.inl ⟨size, rfl⟩
    | invalidInstruction word address => cases hundred
    | digitLimit => cases hundred
  · rintro (⟨size, rfl⟩ | machine)
    · rfl
    · cases machine <;> rfl

/-- A fault of the machine or an invalid instruction halts a run with a code of its own. -/
theorem halts_of_cause
    (cause : fault.OfMachine ∨ ∃ word address, fault = .invalidInstruction word address) :
    fault ≠ .digitLimit ∧ (¬ ∃ size, fault = .romTooLarge size) ∧
      (fault.exitCode = 2 ∨ fault.exitCode = 100) := by
  rcases cause with machine | ⟨word, address, rfl⟩
  · cases machine <;> simp [exitCode]
  · simp [exitCode]

end Fault

namespace Plain

variable {ρ : Type} [ByteSource ρ]

/-- A program from its start on, for a number of steps and the ticks between them. What comes of it
    is the machine in the end, or else what stopped it. -/
def course (rom : List UInt8) (settings : Settings) (random : ρ) (cycles period : Int) :
    Except Refusal (Plain ρ) := do
  let machine ← boot rom settings random
  let (outcome, final) := execute cycles period machine
  outcome.map fun _ => final

/-- The lines of the display. -/
def picture (machine : Plain ρ) (on off : String) : String :=
  "\n".intercalate (machine.rows.map fun row =>
    String.join (row.map fun cell => if cell ≠ 0 then on else off))

variable {rom : List UInt8} {settings : Settings} {random : ρ} {cycles period : Int}
  {machine : Machine ρ}

theorem course_booted (booted : Machine.boot rom settings random = .ok machine) :
    course rom settings random cycles period =
      ((machine.execute cycles period).1.map fun _ =>
        (machine.execute cycles period).2.plain).mapError .fault := by
  rw [course, boot_plain, booted]
  change ((execute cycles period machine.plain).1.map fun _ =>
    (execute cycles period machine.plain).2) = _
  rw [execute_plain]
  cases (machine.execute cycles period).1 <;> rfl

theorem course_unbooted {fault : Fault}
    (failed : Machine.boot rom settings random = .error fault) :
    course rom settings random cycles period = .error (.fault fault) := by
  rw [course, boot_plain, failed]
  rfl

end Plain

namespace Machine

variable {ρ : Type} {rom : List UInt8} {settings : Settings} {random : ρ}

theorem boot_eq_error_iff {fault : Fault} :
    boot rom settings random = .error fault ↔
      3584 < rom.length ∧ fault = .romTooLarge rom.length := by
  refine bind_ok_eq_error_iff.trans ?_
  rw [Memory.loadRom]
  by_cases fits : rom.length ≤ 3584
  · simp [fits]
  · simp [fits, Nat.not_le.mp fits, eq_comm]

/-- A machine that runs is stopped by its program or for a fault of its own. Its program was not too
    long, and the depth of its stack can be told if that with which it began can. -/
theorem execute_fault [ByteSource ρ] {machine : Machine ρ} {cycles period depth : Int}
    {fault : Fault} (within : machine.stack.Within depth) (told : Numeral.Writable depth)
    (stopped : (machine.execute cycles period).1 = .error fault) :
    fault.OfMachine ∨ ∃ word address, fault = .invalidInstruction word address := by
  obtain ⟨moments, _, ⟨count, done⟩ | ⟨cause, after, failed, done⟩⟩ :=
    machine.execute_course cycles period
  · rw [done] at stopped
    cases stopped
  · rw [done] at stopped
    cases stopped
    have kept : (machine.session moments).2.stack.Within depth :=
      session_keeps (fun machine request => within_serve machine request) machine moments within
    obtain ⟨_, fails, _⟩ := Plain.step_eq_error_iff.mp failed
    cases fails with
    | fetch past => exact Or.inl (.memory _)
    | invalid fetched => exact Or.inr ⟨_, _, rfl⟩
    | ret fetched empty => exact Or.inl .underflow
    | call fetched full told => exact Or.inl (.overflow _)
    | untold fetched full long => exact absurd told (kept.fixed ▸ long)
    | draw fetched past => exact Or.inl (.memory _)
    | digits fetched past => exact Or.inl (.memory _)
    | store fetched past => exact Or.inl (.memory _)
    | load fetched past => exact Or.inl (.memory _)

end Machine

namespace Command

namespace Files

variable {files : Files} {path : Path} {reason : FileError}

theorem of_follow_eq_error {place : Place} {names : List String}
    (failed : files.follow path place names = .error reason) :
    ∃ number text about, reason = .system number text about := by
  induction names generalizing place with
  | nil => cases failed
  | cons name rest ih =>
      rw [follow] at failed
      split at failed
      · split at failed
        · cases failed
          exact ⟨_, _, _, rfl⟩
        · exact ih failed
      · split at failed
        · cases failed
          exact ⟨_, _, _, rfl⟩
        · cases failed
          exact ⟨_, _, _, rfl⟩

theorem of_read_eq_error (whole : '\x00' ∉ path.text.toList)
    (failed : files.read path = .error reason) :
    ∃ number text about, reason = .system number text about := by
  rcases bind_eq_error_iff.mp failed with unlocated | ⟨place, _, missed⟩
  · rcases bind_eq_error_iff.mp unlocated with unchecked | ⟨_, _, unfollowed⟩
    · rw [check, if_neg (by simpa using whole)] at unchecked
      split at unchecked
      · cases unchecked
        exact ⟨_, _, _, rfl⟩
      · cases unchecked
    · exact of_follow_eq_error unfollowed
  · split at missed
    · cases missed
      exact ⟨_, _, _, rfl⟩
    · split at missed
      · cases missed
      · cases missed
        exact ⟨_, _, _, rfl⟩

end Files

def World.console (depthLimit : Nat) : Console (World.system depthLimit) where
  shown := World.output
  shown_read _ _ := rfl
  shown_print _ _ _ := rfl
  refused _ _ := Files.of_read_eq_error

/-! What a run of a program ends with. -/

variable {ρ : Type} [ByteSource ρ] {options : RunOptions} {random : ρ} {rom : List UInt8}

theorem ending_haltedBy {fault : Fault} (told : fault ≠ .digitLimit) (log : List LogLine) :
    (haltedBy fault log).ending = .finished fault.exitCode := by
  cases fault with
  | digitLimit => exact absurd rfl told
  | _ => rfl

theorem play_eq (options : RunOptions) (machine : Machine ρ) (log : List LogLine) :
    let outcome := machine.execute options.cycles tickPeriod
    (∃ executed log', outcome.1 = .ok executed ∧
      play options machine log = .ok (outcome.2.plain.picture "#" "." ++ "\n", log')) ∨
      ∃ fault log', outcome.1 = .error fault ∧
        play options machine log = .error (haltedBy fault log') := by
  dsimp only
  rw [play, Plain.picture, Plain.toText_plain]
  cases machine.execute options.cycles tickPeriod with
  | mk outcome final =>
      cases outcome with
      | ok executed => exact Or.inl ⟨executed, _, rfl, rfl⟩
      | error fault => exact Or.inr ⟨fault, _, rfl, rfl⟩

/-- A program that is played ends with a picture of the final machine, or else with the code of the
    fault that halts it. That of a program that is too long is the one fault before the first step,
    and none later. -/
theorem playRom_ends (options : RunOptions) (random : ρ) (rom : List UInt8) :
    let course := Plain.course rom options.settings random options.cycles tickPeriod
    (rom.length ≤ 3584 ∧ ∃ final log, course = .ok final ∧
      playRom options random rom = .ok (final.picture "#" "." ++ "\n", log)) ∨
      ∃ fault report, course = .error (.fault fault) ∧ playRom options random rom = .error report ∧
        report.ending = .finished fault.exitCode ∧
          (3584 < rom.length ↔ ∃ size, fault = .romTooLarge size) ∧
            (fault.exitCode = 2 ∨ fault.exitCode = 100) := by
  dsimp only
  rw [playRom]
  cases booted : Machine.boot rom options.settings random with
  | error fault =>
      obtain ⟨long, rfl⟩ := Machine.boot_eq_error_iff.mp booted
      exact Or.inr ⟨_, _, Plain.course_unbooted booted, rfl, rfl, iff_of_true long ⟨_, rfl⟩,
        Or.inr rfl⟩
  | ok machine =>
      have short : ¬ 3584 < rom.length := fun long => by
        cases booted.symm.trans (Machine.boot_eq_error_iff.mpr ⟨long, rfl⟩)
      rw [Plain.course_booted booted]
      rcases play_eq options machine _ with ⟨executed, log, done, same⟩ | ⟨fault, log, done, same⟩
      · exact Or.inl ⟨Nat.not_lt.mp short, _, log, by rw [done]; rfl, same⟩
      · have told : Numeral.Writable options.settings.stackDepth :=
          show Numeral.Writable 16 by decide +kernel
        obtain ⟨limited, other, code⟩ := Fault.halts_of_cause
          (Machine.execute_fault (Machine.within_boot booted) told done)
        exact Or.inr ⟨fault, _, by rw [done]; rfl, same, ending_haltedBy limited log,
          iff_of_false short other, code⟩

section Calls

variable {σ : Type} {system : System (StateM σ)} {state next after : σ} {log : List LogLine}

theorem runWith_unread {reason : FileError}
    (unread : perform (system.read options.rom) state = (.error reason, next)) :
    perform (runWith system options random) state = (stoppedBy options reason [banner], next) := by
  simp only [runWith, perform_bind, unread, perform_pure]

theorem runWith_halted {report : Report}
    (read : perform (system.read options.rom) state = (.ok rom, next))
    (halted : playRom options random rom = .error report) :
    perform (runWith system options random) state = (report, next) := by
  simp only [runWith, perform_bind, read, halted, perform_pure]

theorem runWith_printed {picture : String}
    (read : perform (system.read options.rom) state = (.ok rom, next))
    (played : playRom options random rom = .ok (picture, log))
    (printed : perform (system.print picture) next = (.ok (), after)) :
    perform (runWith system options random) state = ({ ending := .finished 0, log }, after) := by
  simp only [runWith, perform_bind, read, played, printed, perform_pure]

end Calls

/-- Every run of a program is told apart by its exit code. It ends well, and prints the display of
    the final machine, exactly if the program fits and no step fails; an invalid instruction has a
    code of its own, and another code is shared by files that cannot be read, programs that are too
    long and faults of the machine. Nothing else ends a run, given that the path has no null
    character and the screen takes what is printed. Only a run that ends well prints anything. -/
theorem run_classified {σ : Type} {system : System (StateM σ)} (console : Console system)
    {arguments : List String} {options : RunOptions} (random : ρ) (state : σ)
    (accepted : RunOptions.ofArguments arguments = .ok options)
    (whole : '\x00' ∉ options.rom.text.toList)
    (takes : ∀ text now, (perform (system.print text) now).1 = .ok ()) :
    let found := (perform (system.read options.rom) state).1
    let report := (perform (runWith system options random) state).1
    let after := (perform (runWith system options random) state).2
    let course rom := Plain.course rom options.settings random options.cycles tickPeriod
    (∀ entropy, run system arguments entropy =
      runWith system options (Twister.ofSeed (options.seed.getD entropy))) ∧
      (report.ending = .finished 0 ∨ report.ending = .finished 2 ∨
        report.ending = .finished 100) ∧
      (report.ending = .finished 0 ↔
        ∃ rom, found = .ok rom ∧ ∃ final, course rom = .ok final) ∧
      (∀ rom, found = .ok rom → ∀ final, course rom = .ok final →
        console.shown after = console.shown state ++ (final.picture "#" "." ++ "\n")) ∧
      (report.ending = .finished 2 ↔
        ∃ rom, found = .ok rom ∧
          ∃ word address, course rom = .error (.fault (.invalidInstruction word address))) ∧
      (report.ending = .finished 100 ↔
        (∃ reason, found = .error reason) ∨
          ∃ rom, found = .ok rom ∧
            (3584 < rom.length ∨
              ∃ fault, fault.OfMachine ∧ course rom = .error (.fault fault))) ∧
      (report.ending ≠ .finished 0 → console.shown after = console.shown state) := by
  refine ⟨fun entropy => by rw [run, accepted], ?_⟩
  have silent := console.shown_read options.rom state
  dsimp only
  cases read : perform (system.read options.rom) state with
  | mk found next =>
      rw [read] at silent
      cases found with
      | error reason =>
          obtain ⟨number, text, about, rfl⟩ := console.refused _ _ whole (congrArg Prod.fst read)
          rw [runWith_unread read]
          simp [stoppedBy, silent]
      | ok rom =>
          rcases playRom_ends options random rom with
            ⟨short, final, log, course, played⟩ | ⟨fault, report, course, played, ending, long, code⟩
          · have taken := takes (final.picture "#" "." ++ "\n") next
            have shown := console.shown_print _ _ taken
            have printed : perform (system.print (final.picture "#" "." ++ "\n")) next =
                (.ok (), (perform (system.print (final.picture "#" "." ++ "\n")) next).2) :=
              Prod.ext taken rfl
            rw [runWith_printed read played printed]
            simp [course, short, shown, silent]
          · rw [runWith_halted read played]
            have failed : fault.exitCode ≠ 0 := by omega
            rw [Fault.exitCode_eq_two_iff, Fault.exitCode_eq_hundred_iff] at code
            simpa [ending, silent, course, failed, long, Fault.exitCode_eq_two_iff,
              Fault.exitCode_eq_hundred_iff] using code

/-- A program that goes round in a loop is cut short by the number of steps. -/
theorem run_classified_loop :
    let arguments := ["--cycles=12", "loop.ch8"]
    let options : RunOptions := { cycles := 12, rom := .ofText "loop.ch8" }
    let world : World := { files := .ofList [(.ofText "loop.ch8", [0x12, 0x00])] }
    RunOptions.ofArguments arguments = .ok options ∧
      ∃ final, Plain.course [0x12, 0x00] options.settings (Twister.ofSeed 0) 12 tickPeriod =
          .ok final ∧
        (perform (run (World.system 16) arguments 0) world).2.output =
          final.picture "#" "." ++ "\n" := by
  intro arguments options world
  let system := World.system 16
  obtain ⟨accepted, read, ends⟩ : RunOptions.ofArguments arguments = .ok options ∧
      (perform (system.read options.rom) world).1 = .ok [0x12, 0x00] ∧
        (perform (run system arguments 0) world).1.ending = .finished 0 := by decide +kernel
  obtain ⟨command, _, well, shown, _⟩ := run_classified (World.console 16) (Twister.ofSeed 0) world
    accepted (by decide +kernel) fun _ _ => rfl
  have same : run system arguments 0 = runWith system options (Twister.ofSeed 0) := command 0
  rw [same] at ends ⊢
  obtain ⟨rom, found, final, course⟩ := well.mp ends
  cases read.symm.trans found
  exact ⟨accepted, final, course, shown _ read final course⟩

end Command

end Chip8
