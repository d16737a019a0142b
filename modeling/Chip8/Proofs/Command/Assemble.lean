import Chip8.Command.Assemble
import Chip8.Proofs.Command.Writing

namespace Chip8.Command

/-! The assembling command as a whole: which file it writes, and that it writes nothing else. -/

/-- The name of a program beside that of its source. A suffix is what follows a dot inside a name,
    up to the end and without another dot; it gives way to that of programs, and a name that has
    none gets it. -/
inductive ProgramName : List Char → List Char → Prop
  | replaced {stem suffix : List Char} (stem_ne : stem ≠ []) (suffix_ne : suffix ≠ [])
      (last : '.' ∉ suffix) : ProgramName (stem ++ '.' :: suffix) (stem ++ ".ch8".toList)
  | appended {name : List Char}
      (bare : ∀ stem suffix, name = stem ++ '.' :: suffix → '.' ∉ suffix →
        stem = [] ∨ suffix = []) : ProgramName name (name ++ ".ch8".toList)

namespace Arguments

theorem scan_positional {spellings : Spellings} {argument : String} {rest : List String}
    (further : argument ≠ "--") (positional : isOption argument = false) :
    scan spellings (argument :: rest) = (do
      let others ← scan spellings rest
      some { others with positionals := argument :: others.positionals }) := by
  rw [scan, if_neg further, if_neg (by simp [positional])]

end Arguments

theorem takeWhile_append_of_notMem {α : Type} [DecidableEq α] {mark : α} {front : List α}
    (free : mark ∉ front) (back : List α) :
    (front ++ mark :: back).takeWhile (· != mark) = front ∧
      (front ++ mark :: back).dropWhile (· != mark) = mark :: back := by
  have others : ∀ entry ∈ front, (entry != mark) = true := by
    intro entry member
    exact bne_iff_ne.mpr (ne_of_mem_of_not_mem member free)
  constructor
  · rw [List.takeWhile_append_of_pos others]
    simp
  · rw [List.dropWhile_append_of_pos others]
    simp

namespace Path

theorem pieces_of_notMem {mark : Char} {text : List Char} (free : mark ∉ text) :
    pieces mark text = [text] := by
  induction text with
  | nil => rfl
  | cons character rest ih =>
      obtain ⟨different, free⟩ := not_or.mp (mt List.mem_cons.mpr free)
      rw [pieces, if_neg (Ne.symm different), ih free]

theorem ofText_of_notMem {text : String} (free : '/' ∉ text.toList) (named : text ≠ "")
    (dotless : text ≠ ".") : ofText text = ⟨.here, [text]⟩ := by
  have start : text.toList.takeWhile (· == '/') = [] := by
    rw [List.takeWhile_eq_nil_iff]
    intro _ slash
    exact free (by simpa using (beq_iff_eq.mp slash) ▸ List.getElem_mem _)
  simp [ofText, start, pieces_of_notMem free, named, dotless]

theorem stem_append {front suffix : List Char} (last : '.' ∉ suffix) :
    stem (front ++ '.' :: suffix) =
      if suffix.isEmpty || front.isEmpty then front ++ '.' :: suffix else front := by
  have reversed : (front ++ '.' :: suffix).reverse = suffix.reverse ++ '.' :: front.reverse := by
    simp
  have free : '.' ∉ suffix.reverse := mt List.mem_reverse.mp last
  obtain ⟨taken, dropped⟩ := takeWhile_append_of_notMem free front.reverse
  simp only [stem, reversed, taken, dropped, List.isEmpty_reverse, List.drop_succ_cons,
    List.drop_zero, List.reverse_reverse]

theorem stem_of_bare {name : List Char}
    (bare : ∀ front suffix, name = front ++ '.' :: suffix → '.' ∉ suffix →
      front = [] ∨ suffix = []) : stem name = name := by
  by_cases dotted : '.' ∈ name
  · obtain ⟨suffix, front, split, last⟩ := List.eq_append_cons_of_mem (List.mem_reverse.mpr dotted)
    have split : name = front.reverse ++ '.' :: suffix.reverse := by
      simpa using congrArg List.reverse split
    have last : '.' ∉ suffix.reverse := fun member => last (List.mem_reverse.mp member)
    have empty := bare front.reverse suffix.reverse split last
    rw [split, stem_append last]
    exact if_pos (by simpa [or_comm] using empty)
  · have others : ∀ entry ∈ name.reverse, (entry != '.') = true := by
      intro entry member
      exact bne_iff_ne.mpr (ne_of_mem_of_not_mem (List.mem_reverse.mp member) dotted)
    simp [stem, List.dropWhile_eq_nil_iff.mpr others]

theorem programName_iff {name renamed : List Char} :
    ProgramName name renamed ↔ renamed = stem name ++ ".ch8".toList := by
  constructor
  · intro named
    cases named with
    | replaced stem_ne suffix_ne last => simp [stem_append last, stem_ne, suffix_ne]
    | appended bare => rw [stem_of_bare bare]
  · intro same
    subst same
    by_cases bare : ∀ front suffix, name = front ++ '.' :: suffix → '.' ∉ suffix →
        front = [] ∨ suffix = []
    · rw [stem_of_bare bare]
      exact .appended bare
    · push Not at bare
      obtain ⟨front, suffix, rfl, last, front_ne, suffix_ne⟩ := bare
      rw [stem_append last, if_neg (by simp [front_ne, suffix_ne])]
      exact .replaced front_ne suffix_ne last

theorem ofText_names_ne_empty {text name : String} (member : name ∈ (ofText text).names) :
    name ≠ "" := by
  simp only [ofText, List.mem_filter, Bool.and_eq_true, bne_iff_ne] at member
  exact member.2.1

end Path

theorem decodeText?_eq_some_iff {bytes : List UInt8} {text : String} :
    decodeText? bytes = some text ↔ bytes = text.toUTF8.data.toList := by
  rw [decodeText?, String.fromUTF8?]
  constructor
  · intro decoded
    split at decoded
    · cases decoded
      rfl
    · cases decoded
  · intro same
    subst same
    exact dif_pos text.isValidUTF8

theorem sourceText?_toUTF8 (text : String) :
    sourceText? text.toUTF8.data.toList =
      some (String.ofList (Text.unifyNewlines text.toList)) := by
  rw [sourceText?, decodeText?_eq_some_iff.mpr rfl]
  rfl

namespace AssembleOptions

/-- Where the program goes: to the path that is given, or else beside the source. -/
inductive Output (options : AssembleOptions) : Path → Prop
  | given {binary : Path} (named : options.binary = some binary) : Output options binary
  | beside {outer : List String} {name renamed : String} (unnamed : options.binary = none)
      (source : options.source.names = outer ++ [name])
      (program : ProgramName name.toList renamed.toList) :
      Output options { options.source with names := outer ++ [renamed] }

variable {options : AssembleOptions}

theorem withSuffix_eq {source : Path} {outer : List String} {name renamed : String}
    (split : source.names = outer ++ [name]) :
    source.withSuffix ".ch8" = { source with names := outer ++ [renamed] } ↔
      ProgramName name.toList renamed.toList := by
  have last : source.name = name := by simp [Path.name, split]
  rw [Path.programName_iff, Path.withSuffix, last, split, List.dropLast_concat, Path.mk.injEq,
    List.append_cancel_left_eq, List.cons.injEq, String.ext_iff, String.toList_append,
    String.toList_ofList]
  simp [eq_comm]

theorem output_iff (named : options.source.name ≠ "") (path : Path) :
    options.Output path ↔ options.target? = some path := by
  rw [target?]
  cases given : options.binary with
  | some binary =>
      refine ⟨fun output => ?_, fun same => .given (given.trans same)⟩
      cases output with
      | given named => exact given.symm.trans named
      | beside unnamed => cases given.symm.trans unnamed
  | none =>
      simp only [if_neg named, Option.some.injEq]
      constructor
      · intro output
        cases output with
        | given named => cases given.symm.trans named
        | beside _ source program => exact (withSuffix_eq source).mpr program
      · intro same
        subst same
        rcases List.eq_nil_or_concat' options.source.names with nameless | ⟨outer, name, split⟩
        · exact absurd (by simp [Path.name, nameless]) named
        · have program : ProgramName name.toList
              (String.ofList (Path.stem name.toList) ++ ".ch8").toList :=
            Path.programName_iff.mpr (by simp)
          rw [(withSuffix_eq split).mpr program]
          exact .beside given split program

theorem ofText_of_source {arguments : List String} (accepted : ofArguments arguments = .ok options) :
    ∃ text, options.source = .ofText text := by
  rw [ofArguments, Arguments.choose] at accepted
  split at accepted
  · cases accepted
  · rename_i scanned _
    split at accepted
    · cases accepted
    · split at accepted
      · cases accepted
      · rename_i chosen
        cases accepted
        rw [ofScanned?] at chosen
        split at chosen
        · cases chosen
          exact ⟨_, rfl⟩
        · cases chosen
          exact ⟨_, rfl⟩
        · cases chosen

theorem ofArguments_positionals {source binary : String} (further : source ≠ "--")
    (first : Arguments.isOption source = false) (last : binary ≠ "--")
    (second : Arguments.isOption binary = false) :
    ofArguments [source, binary] =
      .ok { source := .ofText source, binary := some (.ofText binary) } := by
  rw [ofArguments, Arguments.choose, Arguments.scan_positional further first,
    Arguments.scan_positional last second]
  rfl

/-- The last name of a source that has any is not empty. -/
theorem source_named {arguments : List String} (accepted : ofArguments arguments = .ok options)
    (named : options.source.names ≠ []) : options.source.name ≠ "" := by
  obtain ⟨text, spelled⟩ := ofText_of_source accepted
  rw [spelled] at named ⊢
  rw [Path.name, List.getLastD_eq_getLast?, List.getLast?_eq_some_getLast named, Option.getD_some]
  exact Path.ofText_names_ne_empty (List.getLast_mem named)

theorem exists_target {arguments : List String} (accepted : ofArguments arguments = .ok options)
    (named : options.source.names ≠ []) :
    ∃ target, options.target? = some target ∧ ∀ path, options.Output path ↔ path = target := by
  have named := source_named accepted named
  obtain ⟨target, aimed⟩ : ∃ target, options.target? = some target := by
    rw [target?]
    cases options.binary with
    | some binary => exact ⟨binary, rfl⟩
    | none => exact ⟨_, if_neg named⟩
  refine ⟨target, aimed, fun path => ?_⟩
  rw [output_iff named, aimed, Option.some.injEq, eq_comm]

end AssembleOptions

section Deliver

variable {σ ι : Type} {system : System (StateM σ)} {before prepared after : σ}
  {target : Path} {program : List UInt8} {log : List LogLine}

theorem deliver_unmade {reason : FileError}
    (unmade : perform (system.makeParents target) before = (.error reason, prepared)) :
    perform (deliver system target program log) before =
      ({ ending := .crashed (.file reason), log }, prepared) := by
  simp only [deliver, perform_bind, unmade, perform_pure]

theorem deliver_unwritten {reason : FileError}
    (made : perform (system.makeParents target) before = (.ok (), prepared))
    (unwritten : perform (system.write target program) prepared = (.error reason, after)) :
    perform (deliver system target program log) before =
      ({ ending := .crashed (.file reason), log }, after) := by
  simp only [deliver, perform_bind, made, unwritten, perform_pure]

theorem deliver_written
    (made : perform (system.makeParents target) before = (.ok (), prepared))
    (written : perform (system.write target program) prepared = (.ok (), after)) :
    perform (deliver system target program log) before =
      ({ ending := .finished 0, log := log ++
        [.info ("Wrote " ++ Numeral.decimal program.length ++ " bytes to " ++ target.name)] },
        after) := by
  simp only [deliver, perform_bind, made, written, perform_pure]

/-- What has become of a program that was to be written at a path. The directories around it are
    made first, and nothing is written unless that succeeds. -/
structure Filing.Delivered (filing : Filing system ι) (target : Path) (program : List UInt8)
    (before : σ) (report : Report) (after : σ) : Prop where
  exitCode : report.exitCode = 0 ∨ report.exitCode = 1
  well_iff : report.exitCode = 0 ↔
    (perform (system.makeParents target) before).1 = .ok () ∧
      (perform (system.write target program)
        (perform (system.makeParents target) before).2).1 = .ok ()
  written : report.exitCode = 0 → ∃ file, filing.leads after target = some file ∧
    (filing.device file ∨ filing.holds after file = some program)
  elsewhere {file : ι} :
    filing.leads after target ≠ some file → filing.holds after file = filing.holds before file
  unmade : (perform (system.makeParents target) before).1 ≠ .ok () →
    filing.holds after = filing.holds before
  leads : LeadStill filing.leads before after

theorem deliver_delivered (filing : Filing system ι) (target : Path) (program : List UInt8)
    (log : List LogLine) (before : σ) :
    filing.Delivered target program before
      (perform (deliver system target program log) before).1
      (perform (deliver system target program log) before).2 := by
  have kept := filing.holds_makeParents target before
  have led := filing.leads_makeParents target before
  cases made : perform (system.makeParents target) before with
  | mk outcome prepared =>
      rw [made] at kept led
      cases outcome with
      | error reason =>
          rw [deliver_unmade made]
          exact {
            exitCode := Or.inr rfl
            well_iff := by simp [made, Report.exitCode]
            written := nofun
            elsewhere := fun _ => congrFun kept _
            unmade := fun _ => kept
            leads := led }
      | ok _ =>
          have elsewhere := filing.holds_write target program prepared
          have leads := filing.leads_write target program prepared
          have written := filing.written target program prepared
          cases done : perform (system.write target program) prepared with
          | mk outcome after =>
              rw [done] at elsewhere leads written
              cases outcome with
              | error reason =>
                  rw [deliver_unwritten made done]
                  exact {
                    exitCode := Or.inr rfl
                    well_iff := by simp [made, done, Report.exitCode]
                    written := nofun
                    elsewhere := fun other => (elsewhere _ other).trans (congrFun kept _)
                    unmade := fun failed => absurd (congrArg Prod.fst made) failed
                    leads := fun path file there => leads path file (led path file there) }
              | ok _ =>
                  rw [deliver_written made done]
                  exact {
                    exitCode := Or.inl rfl
                    well_iff := by simp [made, done, Report.exitCode]
                    written := fun _ => written rfl
                    elsewhere := fun other => (elsewhere _ other).trans (congrFun kept _)
                    unmade := fun failed => absurd (congrArg Prod.fst made) failed
                    leads := fun path file there => leads path file (led path file there) }

end Deliver

section Assemble

variable {σ ι : Type} {system : System (StateM σ)} {state read : σ} {arguments : List String}
  {options : AssembleOptions} {bytes : List UInt8} {target : Path}

theorem assemble_untranslated {report : Report}
    (accepted : AssembleOptions.ofArguments arguments = .ok options)
    (aimed : options.target? = some target)
    (found : perform (system.read options.source) state = (.ok bytes, read))
    (none : translate options (.ok bytes) = .error report) :
    perform (assemble system arguments) state = (report, read) := by
  simp only [assemble, accepted, assembleWith, aimed, perform_bind, found, none, perform_pure]

theorem assemble_translated {program : List UInt8} {log : List LogLine}
    (accepted : AssembleOptions.ofArguments arguments = .ok options)
    (aimed : options.target? = some target)
    (found : perform (system.read options.source) state = (.ok bytes, read))
    (translated : translate options (.ok bytes) = .ok (program, log)) :
    perform (assemble system arguments) state =
      perform (deliver system target program log) read := by
  simp only [assemble, accepted, assembleWith, aimed, perform_bind, found, translated]

theorem translate_garbled (options : AssembleOptions)
    (garbled : ∀ text : String, bytes ≠ text.toUTF8.data.toList) :
    ∃ log, translate options (.ok bytes) = .error { ending := .crashed .notText, log } := by
  have undecoded : sourceText? bytes = none := by
    rw [sourceText?, Option.map_eq_none_iff, Option.eq_none_iff_forall_ne_some]
    exact fun text decoded => garbled text (decodeText?_eq_some_iff.mp decoded)
  simp only [translate, undecoded]
  exact ⟨_, rfl⟩

theorem translate_failed (options : AssembleOptions) {text : String} {failure : Assembly.Failure}
    (failed : Assembly.assemble (String.ofList (Text.unifyNewlines text.toList)) =
      .error failure) :
    ∃ log, translate options (.ok text.toUTF8.data.toList) =
      .error (unassembled log failure) := by
  simp only [translate, sourceText?_toUTF8, failed]
  exact ⟨_, rfl⟩

theorem translate_ok (options : AssembleOptions) {text : String} {program : List UInt8}
    (assembled : Assembly.assemble (String.ofList (Text.unifyNewlines text.toList)) =
      .ok program) :
    ∃ log, translate options (.ok text.toUTF8.data.toList) = .ok (program, log) := by
  simp only [translate, sourceText?_toUTF8, assembled]
  exact ⟨_, rfl⟩

theorem exitCode_unassembled (log : List LogLine) (failure : Assembly.Failure) :
    (unassembled log failure).exitCode = 1 := by
  cases failure <;> rfl

/-- What the command makes of a source that is not text. -/
theorem assemble_garbled (accepted : AssembleOptions.ofArguments arguments = .ok options)
    (named : options.source.names ≠ [])
    (found : perform (system.read options.source) state = (.ok bytes, read))
    (garbled : ∀ text : String, bytes ≠ text.toUTF8.data.toList) :
    (perform (assemble system arguments) state).1.exitCode = 1 ∧
      (perform (assemble system arguments) state).2 = read := by
  obtain ⟨target, aimed, _⟩ := AssembleOptions.exists_target accepted named
  obtain ⟨log, none⟩ := translate_garbled options garbled
  rw [assemble_untranslated accepted aimed found none]
  exact ⟨rfl, rfl⟩

variable {text : String}

theorem assemble_failed {failure : Assembly.Failure}
    (accepted : AssembleOptions.ofArguments arguments = .ok options)
    (named : options.source.names ≠ [])
    (found : perform (system.read options.source) state = (.ok text.toUTF8.data.toList, read))
    (failed : Assembly.assemble (String.ofList (Text.unifyNewlines text.toList)) =
      .error failure) :
    ∃ log, perform (assemble system arguments) state = (unassembled log failure, read) := by
  obtain ⟨target, aimed, _⟩ := AssembleOptions.exists_target accepted named
  obtain ⟨log, none⟩ := translate_failed options failed
  exact ⟨log, assemble_untranslated accepted aimed found none⟩

theorem assemble_delivered (filing : Filing system ι) {program : List UInt8}
    (accepted : AssembleOptions.ofArguments arguments = .ok options)
    (named : options.source.names ≠ [])
    (found : perform (system.read options.source) state = (.ok text.toUTF8.data.toList, read))
    (assembled : Assembly.assemble (String.ofList (Text.unifyNewlines text.toList)) =
      .ok program) :
    ∃ target, (∀ path, options.Output path ↔ path = target) ∧
      filing.Delivered target program read (perform (assemble system arguments) state).1
        (perform (assemble system arguments) state).2 := by
  obtain ⟨target, aimed, output⟩ := AssembleOptions.exists_target accepted named
  obtain ⟨log, translated⟩ := translate_ok options assembled
  refine ⟨target, output, ?_⟩
  rw [assemble_translated accepted aimed found translated]
  exact deliver_delivered filing target program log read

/-- All or nothing is written. Nothing but reading is done unless the whole source is a program, and
    then the one file that is for the program holds exactly that if the command says so. Whether it
    does or not, every other file is as it was. The assembler sees the source with its line ends
    made alike, and a source that is not text is no program. -/
theorem assemble_all_or_nothing (filing : Filing system ι) (arguments : List String) (state : σ)
    (options : AssembleOptions) (bytes : List UInt8)
    (accepted : AssembleOptions.ofArguments arguments = .ok options)
    (found : (perform (system.read options.source) state).1 = .ok bytes) :
    let read := (perform (system.read options.source) state).2
    let report := (perform (assemble system arguments) state).1
    let after := (perform (assemble system arguments) state).2
    filing.holds read = filing.holds state ∧
      ((∀ text : String, bytes ≠ text.toUTF8.data.toList) → report.exitCode = 1 ∧ after = read) ∧
      ∀ text : String, bytes = text.toUTF8.data.toList →
        let source := String.ofList (Text.unifyNewlines text.toList)
        (∀ failure, Assembly.assemble source = .error failure →
          report.exitCode = 1 ∧ after = read) ∧
        ∀ program, Assembly.assemble source = .ok program →
          ∃ target, (∀ path, options.Output path ↔ path = target) ∧
            filing.Delivered target program read report after := by
  intro read report after
  have named := (filing.found _ _ found).1
  have answered : perform (system.read options.source) state = (.ok bytes, read) :=
    Prod.ext found rfl
  refine ⟨filing.holds_read _ _, assemble_garbled accepted named answered, ?_⟩
  intro text same
  subst same
  refine ⟨fun failure failed => ?_, fun program assembled => ?_⟩
  · obtain ⟨log, done⟩ := assemble_failed accepted named answered failed
    have report_eq : report = unassembled log failure := congrArg Prod.fst done
    exact ⟨report_eq ▸ exitCode_unassembled log failure, congrArg Prod.snd done⟩
  · exact assemble_delivered filing accepted named answered assembled

/-- A program goes to a directory that is yet to be made. -/
theorem assemble_all_or_nothing_given :
    let arguments := ["game.s8", "out/game.ch8"]
    let options : AssembleOptions :=
      { source := .ofText "game.s8", binary := some (.ofText "out/game.ch8") }
    let world : World :=
      { files := .ofList [(.ofText "game.s8", "CLS\r\nRET\r".toUTF8.data.toList)] }
    let after := (perform (assemble (World.system 16) arguments) world).2
    AssembleOptions.ofArguments arguments = .ok options ∧
      (perform ((World.system 16).read options.source) world).1 =
        .ok "CLS\r\nRET\r".toUTF8.data.toList ∧
      after.files.find? (Path.ofText "out/game.ch8").place = some [0x00, 0xE0, 0x00, 0xEE] := by
  intro arguments options world after
  obtain ⟨accepted, found⟩ : AssembleOptions.ofArguments arguments = .ok options ∧
      (perform ((World.system 16).read options.source) world).1 =
        .ok "CLS\r\nRET\r".toUTF8.data.toList := by decide +kernel
  have assembled : Assembly.assemble (String.ofList (Text.unifyNewlines "CLS\r\nRET\r".toList)) =
      .ok [0x00, 0xE0, 0x00, 0xEE] := by decide +kernel
  obtain ⟨_, _, whole⟩ :=
    assemble_all_or_nothing (World.filing 16) arguments world options _ accepted found
  obtain ⟨target, output, delivered⟩ := (whole _ rfl).2 _ assembled
  cases (output _).mp (.given rfl)
  obtain ⟨place, led, device | held⟩ := delivered.written (delivered.well_iff.mpr (by decide +kernel))
  · exact device.elim
  · cases World.place_of_leads led
    exact ⟨accepted, found, held⟩

end Assemble

/-- Among plain files a program is written wherever its path admits it. -/
theorem assemble_admitted {arguments : List String} {options : AssembleOptions} {world : World}
    {depthLimit : Nat} {text : String} {program : List UInt8} {target : Path}
    (accepted : AssembleOptions.ofArguments arguments = .ok options)
    (found : world.files.read options.source = .ok text.toUTF8.data.toList)
    (assembled : Assembly.assemble (String.ofList (Text.unifyNewlines text.toList)) = .ok program)
    (output : options.Output target) (admitted : world.files.Admits depthLimit target) :
    (perform (assemble (World.system depthLimit) arguments) world).1.exitCode = 0 := by
  have named := ((World.filing depthLimit).found options.source world found).1
  have answered : perform ((World.system depthLimit).read options.source) world =
      (.ok text.toUTF8.data.toList, world) := Prod.ext found rfl
  obtain ⟨goal, same, delivered⟩ :=
    assemble_delivered (World.filing depthLimit) accepted named answered assembled
  cases (same target).mp output
  obtain ⟨prepared, made, located, file⟩ := admitted.makes
  refine delivered.well_iff.mpr ⟨congrArg Prod.fst made, ?_⟩
  have wrote : prepared.write target program = (.ok (), prepared.insert target.place program) := by
    rw [Files.write, located]
    exact if_neg file
  rw [World.perform_makeParents, World.perform_write, made, wrote]

/-- A path whose only name has one byte too many is refused, though it is not empty, no directory
    and in no other directory, and though there is a program to write. -/
theorem assemble_refused :
    let name := String.ofList (List.replicate 256 'a')
    let target := Path.ofText name
    let world : World := { files := .ofList [(.ofText "p.s8", "CLS".toUTF8.data.toList)] }
    let command := assemble (World.system 16) ["p.s8", name]
    Assembly.assemble "CLS" = .ok [0x00, 0xE0] ∧ target.names ≠ [] ∧
      ¬ world.files.IsDirectory target.place ∧ target.crossed = [] ∧
        (perform command world).1.exitCode = 1 ∧ (perform command world).2 = world := by
  intro name target world command
  -- Characters are looked at only in the list that the name is made of.
  have spelled : name.toList = List.replicate 256 'a' := String.toList_ofList
  have alone : target = ⟨.here, [name]⟩ :=
    Path.ofText_of_notMem (by rw [spelled]; decide +kernel) (by decide +kernel) (by decide +kernel)
  have positional : Arguments.isOption name = false := by
    rw [Arguments.isOption, spelled]
    decide +kernel
  have checked : Files.check target = .ok () := by
    rw [alone, Files.check_eq_ok_iff]
    change '\x00' ∉ name.toList ∧ name.utf8ByteSize ≤ Files.pathLimit
    rw [spelled]
    decide +kernel
  have accepted : AssembleOptions.ofArguments ["p.s8", name] =
      .ok { source := .ofText "p.s8", binary := some target } := by
    have first : Arguments.isOption "p.s8" = false := by decide +kernel
    have ended : name ≠ "--" := by decide +kernel
    exact AssembleOptions.ofArguments_positionals (by decide) first ended positional
  have found : perform ((World.system 16).read (.ofText "p.s8")) world =
      (.ok "CLS".toUTF8.data.toList, world) := by decide +kernel
  have assembled : Assembly.assemble (String.ofList (Text.unifyNewlines "CLS".toList)) =
      .ok [0x00, 0xE0] := by decide +kernel
  obtain ⟨log, translated⟩ :=
    translate_ok { source := .ofText "p.s8", binary := some target } assembled
  obtain ⟨made, refused⟩ : world.files.makeParents 16 target = (.ok (), world.files) ∧
      world.files.write target [0x00, 0xE0] = (.error (.nameTooLong target), world.files) :=
    Files.write_eq_nameTooLong checked (by rw [alone]) (by decide +kernel)
  have made : perform ((World.system 16).makeParents target) world = (.ok (), world) := by
    rw [World.perform_makeParents, made]
  have refused : perform ((World.system 16).write target [0x00, 0xE0]) world =
      (.error (.nameTooLong target), world) := by
    rw [World.perform_write, refused]
  have ended := assemble_translated accepted rfl found translated
  rw [deliver_unwritten made refused] at ended
  rw [ended, alone]
  exact ⟨assembled, by decide +kernel, by decide +kernel, by decide +kernel, rfl, rfl⟩

end Chip8.Command
