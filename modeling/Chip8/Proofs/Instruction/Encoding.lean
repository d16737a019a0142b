import Chip8.Proofs.Instruction.Decoding

namespace Chip8

/-! Words and instructions are each other's inverses on all integers, up to the bits that neither of
    them keeps. -/

namespace Field

/-- What the field keeps of an operand. A register is not cut. -/
def cut : Field → Int → Int
  | x, operand | y, operand => operand
  | n, operand => operand % 0x10
  | byte, operand => operand % 0x100
  | addr, operand => operand % 0x1000

/-- Registers have to be in range, and any other operand may be any integer. -/
def Accepts : Field → Int → Prop
  | x, operand | y, operand => 0 ≤ operand ∧ operand ≤ 0xF
  | _, _ => True

variable {field : Field} {operand : Int}

theorem place_cut (field : Field) (operand : Int) :
    field.place (field.cut operand) = field.place operand := by
  cases field with
  | x | y => rfl
  | n => exact Int.emod_emod operand 0x10
  | byte => exact Int.emod_emod operand 0x100
  | addr => exact Int.emod_emod operand 0x1000

theorem Accepts.admits_cut (accepted : field.Accepts operand) :
    field.Admits (field.cut operand) := by
  cases field with
  | x | y => exact accepted
  | _ =>
      simp only [Admits, cut, limit]
      omega

end Field

namespace Opcode

variable {opcode : Opcode} {operands : List Int}

/-- The operands as an encoded word keeps them. -/
def cut (opcode : Opcode) (operands : List Int) : List Int :=
  List.zipWith Field.cut opcode.fields operands

/-- Whether the operands are as many as the fields and each field accepts its own. -/
def Accepts (opcode : Opcode) (operands : List Int) : Prop :=
  List.Forall₂ Field.Accepts opcode.fields operands

theorem encode_cut (opcode : Opcode) (operands : List Int) :
    opcode.encode (opcode.cut operands) = opcode.encode operands := by
  have folded (fields : List Field) (operands : List Int) (word : Int) :
      (fields.zip (List.zipWith Field.cut fields operands)).foldl
          (fun word entry => Bits.union word (entry.1.place entry.2)) word =
        (fields.zip operands).foldl
          (fun word entry => Bits.union word (entry.1.place entry.2)) word := by
    induction fields generalizing operands word with
    | nil => rfl
    | cons field fields ih =>
        cases operands with
        | nil => rfl
        | cons operand operands =>
            simp only [List.zipWith_cons_cons, List.zip_cons_cons, List.foldl_cons, ih,
              Field.place_cut]
  exact folded opcode.fields operands opcode.code

theorem Accepts.admits_cut (accepted : opcode.Accepts operands) :
    opcode.Admits (opcode.cut operands) := by
  rw [Accepts] at accepted
  rw [Admits, cut]
  generalize opcode.fields = fields at accepted ⊢
  induction accepted with
  | nil => exact .nil
  | cons here _ ih => exact .cons here.admits_cut ih

/-- Tables that hold the same operations find the same one, whatever their order. -/
theorem search_congr {tables others : List (List Opcode)}
    (same : ∀ opcode, opcode ∈ tables.flatten ↔ opcode ∈ others.flatten) (word : Int) :
    search tables word = search others word := by
  refine Option.ext fun opcode => ?_
  rw [search_eq_some_iff, search_eq_some_iff, same]

end Opcode

namespace Instruction

/-- Decoding by tables of one's own. -/
def decodeBy (tables : List (List Opcode)) (word : Int) : Instruction :=
  match Opcode.search tables word with
  | some opcode => opcode.instruction word
  | none => .invalid word

theorem decodeBy_perm {tables others : List (List Opcode)} (permuted : tables.Perm others)
    (word : Int) : decodeBy tables word = decodeBy others word := by
  have same (opcode : Opcode) : opcode ∈ tables.flatten ↔ opcode ∈ others.flatten :=
    permuted.flatten.mem_iff
  rw [decodeBy, decodeBy, Opcode.search_congr same]

theorem encode_of_opcode? {instruction : Instruction} {opcode : Opcode}
    (known : instruction.opcode? = some opcode) :
    instruction.encode = opcode.encode instruction.operands := by
  cases instruction <;> cases known <;> rfl

theorem decode_cases (word : Int) :
    decode word = .invalid word ∨
      ∃ opcode, (decode word).opcode? = some opcode ∧ opcode.Admits (decode word).operands ∧
        (decode word).encode = word % 0x10000 := by
  cases known : (decode word).opcode? with
  | none => exact Or.inl (decode_of_opcode?_eq_none known)
  | some opcode =>
      have found := opcode?_decode_eq_some_iff.mp known
      have operands : (decode word).operands = opcode.read word := by
        rw [decode_of_matches found, opcode.operands_instruction]
      refine Or.inr ⟨opcode, rfl, ?_, ?_⟩
      · rw [operands]
        exact opcode.admits_read word
      · rw [encode_of_opcode? known, operands, Opcode.encode_read found]

/-- Every integer either is kept as no instruction or means one with operands in range, whose word
    agrees with it in its sixteen lowest bits. The order of the tables for words with operands does
    not matter. An operation with registers in range and any other integers is found again in its
    word, with what its fields keep of them. -/
theorem decode_round_trip :
    (∀ word, decode word = .invalid word ∨
      ∃ opcode, (decode word).opcode? = some opcode ∧ opcode.Admits (decode word).operands ∧
        (decode word).encode = word % 0x10000) ∧
      (∀ word, 0 ≤ word → word ≤ 0xFFFF → (decode word).encode = word) ∧
        (∀ tables word,
          tables.Perm [Opcode.byLeadingDigit, Opcode.byOuterDigits, Opcode.byLowByte] →
            decodeBy (Opcode.exact :: tables) word = decode word) ∧
          ∀ opcode operands, opcode.Accepts operands →
            (decode (opcode.encode operands)).opcode? = some opcode ∧
              (decode (opcode.encode operands)).operands = opcode.cut operands := by
  refine ⟨decode_cases, fun word low high => ?_, fun tables word permuted => ?_, ?_⟩
  · rcases decode_cases word with unknown | ⟨opcode, _, _, encoded⟩
    · rw [unknown]
      rfl
    · rw [encoded]
      omega
  · exact decodeBy_perm (permuted.cons Opcode.exact) word
  · intro opcode operands accepted
    -- Only the operands that were cut are sure to be in range.
    rw [← Opcode.encode_cut]
    exact decode_encode accepted.admits_cut

/-- A jump to an address below zero, and a word that is too large by far. -/
theorem decode_round_trip_negative :
    (decode (Opcode.encode (.address .jump) [-3])).operands = [0xFFD] ∧
      (decode 0x7F5D123).opcode? = some .draw ∧ (decode 0x7F5D123).encode = 0xD123 := by
  refine ⟨?_, by decide, ?_⟩
  · exact (decode_round_trip.2.2.2 (.address .jump) [-3] (.cons trivial .nil)).2
  · rcases decode_round_trip.1 0x7F5D123 with unknown | ⟨_, _, _, encoded⟩
    · exact absurd unknown (by decide)
    · exact encoded

end Instruction

end Chip8
