import Chip8.Proofs.Assembly.Literal

namespace Chip8.Assembly

open Cursor

/-! Which texts have a program, and what is reported of those that do not. A report names the number
    that is out of range, which is not possible for every number that can be read. -/

/-- A literal that is a one and zeros behind it. -/
theorem literal_power (count : Nat) :
    Literal (16 ^ count) ('0' :: 'x' :: '1' :: List.replicate count '0') := by
  have one : Numeral.digitValue? 16 '1' = some 1 := rfl
  have zero : Numeral.digitValue? 16 '0' = some 0 := rfl
  refine .marked (show (16, 'x') ∈ baseMarks by decide) ⟨List.cons_ne_nil _ _, ?_, ?_⟩
  · refine List.forall_mem_cons.mpr ⟨rfl, fun character member => ?_⟩
    rw [(List.mem_replicate.mp member).2, zero]
    rfl
  · rw [List.filterMap_cons_some one, List.filterMap_replicate_of_some zero]
    exact (Numeral.value_append_zeros 16 [1] count).trans (Nat.one_mul _)

theorem parse_power (count : Nat) :
    parse ("DB " ++ String.ofList ('0' :: 'x' :: '1' :: List.replicate count '0')) =
      .ok [.bytes [(16 ^ count : Nat)]] := by
  have spelled : Literals [16 ^ count]
      [String.ofList ('0' :: 'x' :: '1' :: List.replicate count '0')] := by
    refine .cons ?_ .nil
    rw [String.toList_ofList]
    exact literal_power count
  have parsed := parse_bytes spelled (List.cons_ne_nil _ _)
  rwa [String.intercalate_singleton] at parsed

variable {items : List Item} {number : Nat}

/-- A byte out of range at the start of a text. The report of it would hold its number. -/
theorem assemble_first_byte {source : String} (parsed : parse source = .ok (.bytes [number] :: items))
    (large : 0xFF < number) : assemble source = .error (AsmError.byteRange number).raised := by
  have unlaid : ({} : Layout).add (.bytes [(number : Int)]) =
      .error (AsmError.byteRange number).raised := by
    simp only [Layout.add, List.mapM_cons, byte_of_large large]
    rfl
  rw [assemble_of_parse parsed]
  simp only [assembleItems, Layout.addAll, unlaid]

theorem firstFault_byte (large : 0xFF < number) :
    FirstFault Item.LayoutFault [.bytes [number]] (.byteRange number) := by
  refine firstFault_cons.mpr (Or.inl (.bytes (firstFault_cons.mpr (Or.inl (.range ?_)))))
  omega

theorem power_large {count : Nat} (long : 2 ≤ count) : 0xFF < 16 ^ count :=
  Nat.lt_of_lt_of_le (show 0xFF < 16 ^ 2 by decide) (Nat.pow_le_pow_right (by decide) long)

/-- A number that can be read, since it is written in hexadecimal, but not told in decimal. -/
theorem power_untold : ¬ (AsmError.byteRange (16 ^ 3600 : Nat)).Writable := by decide +kernel

/-- A text that can be read is assembled exactly if its items are well formed. Otherwise the first
    item that cannot be laid out is reported, and only where there is none the first that cannot
    be written; but a report that would hold a number with too many digits fails in its turn. What
    is written for an instruction always fits a word. -/
theorem assemble_diagnosis {source : String} (parsed : parse source = .ok items) :
    ((∃ program, assemble source = .ok program) ↔ WellFormed items) ∧
      (∀ failure, assemble source = .error failure ↔ ∃ reason,
        (FirstFault Item.LayoutFault items reason ∨
          Faultless Item.LayoutFault items ∧
            FirstFault (fun _ => Item.EmissionFault items) items reason) ∧
        (reason.Writable ∧ failure = .report reason ∨
          ¬ reason.Writable ∧ failure = .digitLimit none)) ∧
      (∀ reason text, (Failure.report reason).message = text ↔ reason.Worded text) ∧
      ∀ (layout : Layout) (opcode : Opcode) (operands : List Operand) (values : List Int),
        layout.operandValues opcode operands = .ok values →
          0 ≤ opcode.encode values ∧ opcode.encode values ≤ 0xFFFF := by
  have shaped := shaped_of_parse parsed
  rw [assemble_of_parse parsed]
  refine ⟨assembleItems_isOk_iff shaped, fun failure => ?_, AsmError.worded_iff, ?_⟩
  · rw [assembleItems_eq_error_iff shaped]
    exact exists_congr fun reason => and_congr_right fun _ => AsmError.raised_eq_iff
  · intro layout opcode operands values evaluated
    obtain ⟨_, _, checked⟩ := bind_eq_ok_iff.mp evaluated
    obtain ⟨_, admitted, same⟩ := bind_eq_ok_iff.mp checked
    cases same
    obtain ⟨_, _, range⟩ := Opcode.encode_fits (Layout.admits_of_checkOperands admitted)
    exact range

/-- A byte that is too large comes before a label that is defined again, and before all operands. -/
theorem assemble_diagnosis_byte :
    parse "JP c\na: DB 1, 300, 400\na: DW 70000" =
        .ok [.instruction (.address .jump) [.label "c"], .label "a", .bytes [1, 300, 400],
          .label "a", .words [.number 70000]] ∧
      assemble "JP c\na: DB 1, 300, 400\na: DW 70000" = .error (.report (.byteRange 300)) ∧
        (AsmError.byteRange 300).Worded "Byte 300 out of range" := by
  have parsed : parse "JP c\na: DB 1, 300, 400\na: DW 70000" =
      .ok [.instruction (.address .jump) [.label "c"], .label "a", .bytes [1, 300, 400],
        .label "a", .words [.number 70000]] := by decide +kernel
  have value : FirstFault (fun _ => ByteFault) [1, 300, 400] (.byteRange 300) := by
    refine firstFault_cons.mpr (Or.inr ⟨byteFault_iff.mpr (by decide), ?_⟩)
    exact firstFault_cons.mpr (Or.inl (.range (by decide)))
  have writable : (AsmError.byteRange 300).Writable := by decide +kernel
  obtain ⟨_, failures, wording, _⟩ := assemble_diagnosis parsed
  refine ⟨parsed, (failures _).mpr ⟨_, Or.inl ?_, Or.inl ⟨writable, rfl⟩⟩,
    (wording _ _).mp (by decide +kernel)⟩
  refine firstFault_cons.mpr (Or.inr ⟨?_, firstFault_cons.mpr (Or.inr ⟨?_, ?_⟩)⟩)
  · intro reason impossible
    cases impossible
  · intro reason fault
    obtain ⟨defined⟩ | _ := fault
    exact absurd defined (by decide)
  · exact firstFault_cons.mpr (Or.inl (.bytes value))

/-- A byte out of range that goes unreported. It can be read, because it is written in hexadecimal,
    but the report would have to say it in decimal. -/
theorem assemble_unreported :
    let source := "DB " ++ String.ofList ('0' :: 'x' :: '1' :: List.replicate 3600 '0')
    parse source = .ok [.bytes [(16 ^ 3600 : Nat)]] ∧
      FirstFault Item.LayoutFault [.bytes [(16 ^ 3600 : Nat)]] (.byteRange (16 ^ 3600 : Nat)) ∧
        (∀ error, assemble source ≠ .error (.report error)) ∧
          assemble source = .error (.digitLimit none) ∧
            (Failure.digitLimit none).message = "Exceeds the limit (4300 digits) for integer " ++
              "string conversion; use sys.set_int_max_str_digits() to increase the limit" := by
  intro source
  have parsed := parse_power 3600
  have large : 0xFF < 16 ^ 3600 := power_large (by decide)
  have failed : assemble source = .error (.digitLimit none) :=
    (assemble_first_byte parsed large).trans (congrArg _ (if_neg power_untold))
  refine ⟨parsed, firstFault_byte large, fun error reported => ?_, failed, by decide +kernel⟩
  cases failed.symm.trans reported

end Chip8.Assembly
