import Chip8.Proofs.Assembly.Joining
import Chip8.Proofs.Assembly.LineEnds
import Chip8.Proofs.Assembly.Reporting
import Chip8.Proofs.Command.Assemble

namespace Chip8.Command

/-! What the assembling command makes of line ends of two characters. It makes them alike before it
    assembles, but the assembler would have told no difference. -/

/-- Line ends do not matter. A text without carriage returns has the same program, or the same
    failure with the same wording, when there is one in front of each line feed. So the command
    writes for a file of such lines what the assembler makes of the file as it stands, or ends with
    what the assembler fails for. -/
theorem assemble_lineEnds :
    (∀ source : String, '\r' ∉ source.toList →
      Assembly.assemble (String.ofList (Assembly.withReturns source.toList)) =
        Assembly.assemble source) ∧
    ∀ {σ ι : Type} {system : System (StateM σ)} (filing : Filing system ι)
      (arguments : List String) (state : σ) (options : AssembleOptions) (text : String),
      AssembleOptions.ofArguments arguments = .ok options →
        (perform (system.read options.source) state).1 = .ok text.toUTF8.data.toList →
          Assembly.ReturnsPaired text.toList →
      let read := (perform (system.read options.source) state).2
      let report := (perform (assemble system arguments) state).1
      let after := (perform (assemble system arguments) state).2
      filing.holds read = filing.holds state ∧
      (∀ reason, Assembly.assemble text = .error (.report reason) →
        report.ending = .rejected reason.message ∧ after = read) ∧
      (∀ given, Assembly.assemble text = .error (.digitLimit given) →
        report.ending = .crashed (.failure (.digitLimit given)) ∧ after = read) ∧
      ∀ program, Assembly.assemble text = .ok program →
        ∃ target, (∀ path, options.Output path ↔ path = target) ∧
          filing.Delivered target program read report after := by
  constructor
  · intro source free
    refine Assembly.assemble_returned ?_
    rw [String.toList_ofList]
    exact Assembly.returned_withReturns free
  · intro σ ι system filing arguments state options text accepted found paired read report after
    have named := (filing.found _ _ found).1
    have answered : perform (system.read options.source) state =
        (.ok text.toUTF8.data.toList, read) := Prod.ext found rfl
    have same : Assembly.assemble text =
        Assembly.assemble (String.ofList (Text.unifyNewlines text.toList)) := by
      refine Assembly.assemble_returned ?_
      rw [String.toList_ofList]
      exact Assembly.returned_unifyNewlines paired
    rw [same]
    have ends (failure : Assembly.Failure)
        (failed : Assembly.assemble (String.ofList (Text.unifyNewlines text.toList)) =
          .error failure) :
        (∃ log, report = unassembled log failure) ∧ after = read := by
      obtain ⟨log, done⟩ := assemble_failed accepted named answered failed
      exact ⟨⟨log, congrArg Prod.fst done⟩, congrArg Prod.snd done⟩
    refine ⟨filing.holds_read _ _, fun reason failed => ?_, fun given failed => ?_,
      fun program assembled => assemble_delivered filing accepted named answered assembled⟩
    · obtain ⟨⟨log, same⟩, kept⟩ := ends _ failed
      exact ⟨congrArg Report.ending same, kept⟩
    · obtain ⟨⟨log, same⟩, kept⟩ := ends _ failed
      exact ⟨congrArg Report.ending same, kept⟩

/-- A file in which some of the line ends have two characters, with a comment and with a tab in
    front of them, and a text that is refused in its second line. -/
theorem assemble_lineEnds_mixed :
    let text := "JP end ; far\r\nDB 1,\t2\t\r\nend: CLS\n"
    let world : World := { files := .ofList [(.ofText "game.s8", text.toUTF8.data.toList)] }
    let target := Path.ofText "out/game.ch8"
    let after := (perform (assemble (World.system 16) ["game.s8", "out/game.ch8"]) world).2
    Assembly.ReturnsPaired text.toList ∧
      after.files.find? target.place = some [0x12, 0x04, 0x01, 0x02, 0x00, 0xE0] ∧
        Assembly.assemble (String.ofList (Assembly.withReturns "CLS\n\tSHR V1,\t \n".toList)) =
          .error (.report (.malformed 2 15 "SHR V1,")) := by
  intro text world target after
  have paired : Assembly.ReturnsPaired text.toList := by decide +kernel
  obtain ⟨accepted, found⟩ : AssembleOptions.ofArguments ["game.s8", "out/game.ch8"] =
        .ok { source := .ofText "game.s8", binary := some target } ∧
      (perform ((World.system 16).read (.ofText "game.s8")) world).1 =
        .ok text.toUTF8.data.toList := by decide +kernel
  have assembled : Assembly.assemble text = .ok [0x12, 0x04, 0x01, 0x02, 0x00, 0xE0] := by
    decide +kernel
  have refused : Assembly.assemble "CLS\n\tSHR V1,\t \n" =
      .error (.report (.malformed 2 15 "SHR V1,")) := by decide +kernel
  obtain ⟨returned, command⟩ := assemble_lineEnds
  obtain ⟨goal, output, delivered⟩ :=
    (command (World.filing 16) _ world _ text accepted found paired).2.2.2 _ assembled
  cases (output target).mp (.given rfl)
  refine ⟨paired, ?_, (returned _ (by decide +kernel)).trans refused⟩
  obtain ⟨place, led, device | held⟩ :=
    delivered.written (delivered.well_iff.mpr (by decide +kernel))
  · exact device.elim
  · cases World.place_of_leads led
    exact held

/-- A text of two lines that has neither a program nor a report, with either kind of line end. The
    byte of its first line is out of range, but has too many digits to be told. -/
theorem assemble_lineEnds_untold :
    let source := "DB " ++ String.ofList ('0' :: 'x' :: '1' :: List.replicate 3600 '0') ++
      "\n" ++ "CLS"
    let untold (text : String) := Assembly.assemble text = .error (.digitLimit none)
    '\r' ∉ source.toList ∧ untold source ∧
      untold (String.ofList (Assembly.withReturns source.toList)) := by
  intro source untold
  have free (count : Nat) : '\r' ∉ ("DB " ++ String.ofList
      ('0' :: 'x' :: '1' :: List.replicate count '0') ++ "\n" ++ "CLS").toList := by
    simp
  have free : '\r' ∉ source.toList := free 3600
  have parsed : Assembly.parse source =
      .ok [.bytes [(16 ^ 3600 : Nat)], .instruction (.bare .clearScreen) []] :=
    Assembly.parse_lines (Assembly.parse_power 3600) (by decide +kernel)
  have failed : untold source :=
    (Assembly.assemble_first_byte parsed (Assembly.power_large (by decide))).trans
      (congrArg _ (if_neg Assembly.power_untold))
  refine ⟨free, failed, (Assembly.assemble_returned ?_).trans failed⟩
  rw [String.toList_ofList]
  exact Assembly.returned_withReturns free

end Chip8.Command
