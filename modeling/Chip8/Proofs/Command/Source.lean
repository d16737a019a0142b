import Chip8.Proofs.Command.Assemble

namespace Chip8.Command

/-! What becomes of the source file itself when the program goes beside it. The two have one
    directory, so that everything depends on the last name. -/

namespace Place

theorem length_outward_le (place : Place) : place.outward.names.length ≤ place.names.length := by
  rw [outward]
  split
  · rename_i same
    simp [same]
  · exact Nat.zero_le _
  · exact Nat.le_refl _

theorem step_ne_outward {place : Place} {name : String} (inward : name ≠ "..") :
    place.step name ≠ place.outward := by
  intro same
  have bound := place.length_outward_le
  rw [← same, step, if_neg inward, List.length_cons] at bound
  omega

/-- Two names lead from one place to two places. -/
theorem step_injective (place : Place) : Function.Injective place.step := by
  intro first second same
  by_cases back : first = ".."
  · by_contra different
    rw [back, step, if_pos rfl] at same
    exact step_ne_outward (fun too => different (back.trans too.symm)) same.symm
  · by_cases too : second = ".."
    · rw [too] at same
      exact absurd (same.trans (if_pos rfl)) (step_ne_outward back)
    · rw [step, step, if_neg back, if_neg too, Place.mk.injEq, List.cons.injEq] at same
      exact same.2.1

end Place

namespace Path

variable {path : Path}

/-- The last name is a program's: it ends as that of a program does and has more to it. -/
def NamesProgram (path : Path) : Prop :=
  ∃ outer stem, stem ≠ "" ∧ path.names = outer ++ [stem ++ ".ch8"]

theorem withSuffix_eq_self_iff {suffix : String} : path.withSuffix suffix = path ↔
    path.names.dropLast ++ [String.ofList (stem path.name.toList) ++ suffix] = path.names := by
  obtain ⟨anchor, names⟩ := path
  rw [withSuffix, Path.mk.injEq, and_iff_right rfl]

/-- Such a name is the one that a program beside it would get. -/
theorem namesProgram_iff : path.NamesProgram ↔ path.withSuffix ".ch8" = path := by
  rw [withSuffix_eq_self_iff]
  constructor
  · rintro ⟨outer, stem, stem_ne, same⟩
    have name : path.name = stem ++ ".ch8" := by simp [Path.name, same]
    have kept : Path.stem path.name.toList = stem.toList := by
      rw [name, String.toList_append]
      exact (stem_append (by decide +kernel)).trans (if_neg (by simpa using stem_ne))
    rw [kept, String.ofList_toList, same, List.dropLast_concat]
  · intro same
    refine ⟨_, _, fun empty => ?_, same.symm⟩
    -- A name that is all suffix would be its own stem.
    have name : path.name = ".ch8" := by
      rw [empty] at same
      rw [Path.name, ← same]
      simp
    rw [name] at empty
    exact absurd empty (by decide +kernel)

instance (path : Path) : Decidable path.NamesProgram :=
  decidable_of_iff _ namesProgram_iff.symm

theorem place_withSuffix_eq_iff {suffix : String} (named : path.names ≠ []) :
    (path.withSuffix suffix).place = path.place ↔ path.withSuffix suffix = path := by
  refine ⟨fun same => ?_, congrArg place⟩
  let outer := path.names.dropLast.foldl Place.step path.start
  have renamed : (path.withSuffix suffix).place =
      outer.step (String.ofList (stem path.name.toList) ++ suffix) := by
    rw [place, withSuffix, List.foldl_append]
    rfl
  have kept : path.place = outer.step (path.names.getLast named) := by
    conv_lhs => rw [place, ← List.dropLast_append_getLast named, List.foldl_append]
    rfl
  rw [renamed, kept] at same
  rw [withSuffix_eq_self_iff, outer.step_injective same, List.dropLast_append_getLast]

end Path

/-- Among plain files, the path beside a file under another suffix leads elsewhere. -/
theorem World.unlinked {before after : World} {path : Path} {place : Place} {suffix : String}
    (named : path.names ≠ []) (other : path.withSuffix suffix ≠ path)
    (led : before.leads path = some place) : after.leads (path.withSuffix suffix) ≠ some place := by
  intro linked
  have same := (World.place_of_leads linked).symm.trans (World.place_of_leads led)
  exact other ((Path.place_withSuffix_eq_iff named).mp same)

/-- The program that a file is the source of. A file that is not text is the source of none. -/
def Assembles (bytes program : List UInt8) : Prop :=
  ∃ text : String, bytes = text.toUTF8.data.toList ∧
    Assembly.assemble (String.ofList (Text.unifyNewlines text.toList)) = .ok program

variable {σ ι : Type} {system : System (StateM σ)} {arguments : List String} {state read : σ}
  {options : AssembleOptions} {bytes : List UInt8}

theorem output_beside (accepted : AssembleOptions.ofArguments arguments = .ok options)
    (beside : options.binary = none) (named : options.source.names ≠ []) (path : Path) :
    options.Output path ↔ path = options.source.withSuffix ".ch8" := by
  have named := AssembleOptions.source_named accepted named
  rw [AssembleOptions.output_iff named, AssembleOptions.target?, beside]
  simp only [if_neg named, Option.some.injEq]
  exact eq_comm

theorem assemble_of_not_assembles
    (accepted : AssembleOptions.ofArguments arguments = .ok options)
    (named : options.source.names ≠ [])
    (found : perform (system.read options.source) state = (.ok bytes, read))
    (none : ∀ program, ¬ Assembles bytes program) :
    (perform (assemble system arguments) state).2 = read := by
  by_cases garbled : ∀ text : String, bytes ≠ text.toUTF8.data.toList
  · exact (assemble_garbled accepted named found garbled).2
  · push Not at garbled
    obtain ⟨text, rfl⟩ := garbled
    cases assembled : Assembly.assemble (String.ofList (Text.unifyNewlines text.toList)) with
    | error failure =>
        obtain ⟨log, done⟩ := assemble_failed accepted named found assembled
        exact congrArg Prod.snd done
    | ok program => exact absurd ⟨text, rfl, assembled⟩ (none program)

/-- What assembling makes of a source when no other path is given for the program. The source is
    kept if it is no program. It is kept also if it is one, unless its own name already is a
    program's or a link leads from the program's name to it. Under a program's name it gives way to
    the program that was made of it, if the command says that it wrote that. -/
theorem assemble_source (filing : Filing system ι) (arguments : List String) (state : σ)
    (options : AssembleOptions) (bytes : List UInt8) (file : ι)
    (accepted : AssembleOptions.ofArguments arguments = .ok options)
    (beside : options.binary = none)
    (found : (perform (system.read options.source) state).1 = .ok bytes)
    (there : filing.leads state options.source = some file) :
    let report := (perform (assemble system arguments) state).1
    let after := (perform (assemble system arguments) state).2
    ((∀ program, ¬ Assembles bytes program) →
      filing.holds after file = filing.holds state file) ∧
      (¬ options.source.NamesProgram →
        (∀ target, options.Output target → target ≠ options.source →
          filing.leads after target ≠ some file) →
        filing.holds after file = filing.holds state file) ∧
      ∀ program, Assembles bytes program → options.source.NamesProgram → report.exitCode = 0 →
        filing.device file ∨ filing.holds after file = some program := by
  intro report after
  let read := (perform (system.read options.source) state).2
  have named := (filing.found _ _ found).1
  have answered : perform (system.read options.source) state = (.ok bytes, read) :=
    Prod.ext found rfl
  have held : filing.holds read = filing.holds state := filing.holds_read _ _
  have output := output_beside accepted beside named
  have kept (none : ∀ program, ¬ Assembles bytes program) :
      filing.holds after file = filing.holds state file := by
    rw [show after = read from assemble_of_not_assembles accepted named answered none, held]
  refine ⟨kept, fun other unlinked => ?_, ?_⟩
  · by_cases none : ∀ program, ¬ Assembles bytes program
    · exact kept none
    · push Not at none
      obtain ⟨program, text, rfl, assembled⟩ := none
      obtain ⟨target, same, delivered⟩ :=
        assemble_delivered filing accepted named answered assembled
      have goes : options.Output target := (same target).mpr rfl
      have apart : target ≠ options.source := fun there =>
        other (Path.namesProgram_iff.mpr (((output target).mp goes).symm.trans there))
      rw [show filing.holds after file = _ from delivered.elsewhere (unlinked target goes apart),
        held]
  · rintro program ⟨text, rfl, assembled⟩ program_named well
    obtain ⟨target, same, delivered⟩ := assemble_delivered filing accepted named answered assembled
    have goes : target = options.source :=
      ((output target).mp ((same target).mpr rfl)).trans (Path.namesProgram_iff.mp program_named)
    obtain ⟨written, led, holds⟩ := delivered.written well
    have still := delivered.leads _ _ (filing.leads_read options.source state _ _ there)
    rw [goes] at led
    cases led.symm.trans still
    exact holds

/-- A source beside which its last program lies. -/
theorem assemble_source_kept :
    let arguments := ["src/game.s8"]
    let options : AssembleOptions := { source := .ofText "src/game.s8" }
    let bytes := "CLS\nRET\n".toUTF8.data.toList
    let world : World :=
      { files := .ofList [(.ofText "src/game.ch8", [0x00, 0xE0]), (options.source, bytes)] }
    let after := (perform (assemble (World.system 16) arguments) world).2
    AssembleOptions.ofArguments arguments = .ok options ∧ options.binary = none ∧
      world.leads options.source = some options.source.place ∧
        Assembles bytes [0x00, 0xE0, 0x00, 0xEE] ∧
          after.files.find? options.source.place = some bytes := by
  intro arguments options bytes world after
  obtain ⟨accepted, found, there⟩ : AssembleOptions.ofArguments arguments = .ok options ∧
      (perform ((World.system 16).read options.source) world).1 = .ok bytes ∧
        world.leads options.source = some options.source.place := by decide +kernel
  have assembled : Assembly.assemble (String.ofList (Text.unifyNewlines "CLS\nRET\n".toList)) =
      .ok [0x00, 0xE0, 0x00, 0xEE] := by decide +kernel
  have named : options.source.names ≠ [] := by decide +kernel
  have unlinked (target : Path) (goes : options.Output target) (apart : target ≠ options.source) :
      after.leads target ≠ some options.source.place := by
    cases (output_beside accepted rfl named target).mp goes
    exact World.unlinked named apart there
  obtain ⟨_, kept, _⟩ := assemble_source (World.filing 16) arguments world options bytes _ accepted
    rfl found there
  refine ⟨accepted, rfl, there, ⟨_, rfl, assembled⟩, ?_⟩
  exact (kept (by decide +kernel) unlinked).trans (by decide +kernel)

/-- A source that is itself called a program gives way to the program that it was made of. -/
theorem assemble_source_replaced :
    let source := Path.ofText "p.ch8"
    let world : World := { files := .ofList [(source, "CLS".toUTF8.data.toList)] }
    let after := perform (assemble (World.system 16) ["p.ch8"]) world
    AssembleOptions.ofArguments ["p.ch8"] = .ok { source } ∧
      world.files.read source = .ok "CLS".toUTF8.data.toList ∧ after.1.exitCode = 0 ∧
        after.2.files.read source = .ok [0x00, 0xE0] ∧
          [0x00, 0xE0] ≠ "CLS".toUTF8.data.toList := by
  decide +kernel

end Chip8.Command
