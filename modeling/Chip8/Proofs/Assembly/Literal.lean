import Chip8.Proofs.Assembly.Diagnosis
import Chip8.Proofs.Assembly.Printing

namespace Chip8.Assembly

open Cursor

/-! Numbers in a source text. However a number is spelled, the whole of it is compared with the
    limit of the place where it stands, so that what fits is written as it is and nothing is ever
    cut. -/

/-- The spellings of a number. There may be any zeros in front, as far as decimal digits are not too
    many, and small letters or capitals. -/
inductive Literal (number : Nat) : List Char → Prop
  | decimal {digits : List Char} (spelled : Numeral.IsNumeral 10 number digits)
      (short : digits.length ≤ Numeral.digitLimit) : Literal number digits
  | marked {base : Nat} {mark : Char} {digits : List Char} (marks : (base, mark) ∈ baseMarks)
      (spelled : Numeral.IsNumeral base number digits) : Literal number ('0' :: mark :: digits)

/-- The operations whose last operand is a number and not a register, each with its field. -/
inductive EndsInNumber : Opcode → Field → Prop
  | address (op : AddressOp) : EndsInNumber (.address op) .addr
  | immediate (op : ImmediateOp) : EndsInNumber (.immediate op) .byte
  | draw : EndsInNumber .draw .n

/-- The command for such an operation, with a literal behind the registers. -/
def literalText (opcode : Opcode) (registers : List Int) (literal : String) : String :=
  opcode.form.mnemonic ++ " " ++
    ", ".intercalate (slotTexts opcode.form.slots.dropLast registers ++ [literal])

/-- Literals for numbers, one each. -/
def Literals : List Nat → List String → Prop :=
  List.Forall₂ fun number literal => Literal number literal.toList

/-- The first of the numbers that is above a limit. -/
def FirstAbove (limit : Nat) (numbers : List Nat) (number : Nat) : Prop :=
  ∃ before after, numbers = before ++ number :: after ∧ (∀ earlier ∈ before, earlier ≤ limit) ∧
    limit < number

variable {number : Nat} {literal : String} {opcode : Opcode} {field : Field} {registers : List Int}
  {numbers : List Nat} {literals : List String}

/-! A literal is read to its end. -/

theorem Literal.takes {text : List Char} (spelled : Literal number text) :
    Takes Cursor.number text (.ok number) := by
  cases spelled with
  | decimal digits short => exact number_takes_decimal digits short
  | marked marks digits => exact number_takes_marked marks digits

theorem Literal.isSlotText {text : List Char} (spelled : Literal number text) :
    IsSlotText text := by
  cases spelled with
  | decimal digits => exact .of_numeral digits
  | marked marks digits =>
      have parts : baseMarks.all (isSlotCharacter ·.2) = true := by decide
      exact ((IsSlotText.of_numeral digits).cons (List.all_eq_true.mp parts _ marks)).cons
        (by decide)

theorem Literal.digit {text : List Char} (spelled : Literal number text) :
    text.head?.any (isDigitOf 10) = true := by
  cases spelled with
  | decimal digits =>
      obtain ⟨first, more, rfl⟩ := List.exists_cons_of_ne_nil digits.nonempty
      exact digits.digits first (List.mem_cons_self ..)
  | marked => rfl

theorem Literal.slot_takes (spelled : Literal number literal.toList)
    (ends : EndsInNumber opcode field) :
    Takes (slot (.operand field)) literal.toList [.ok (.number number)] := by
  intro cursor last rest here apart stops
  cases ends with
  | address =>
      obtain ⟨final, read⟩ := address_takes spelled.takes cursor last rest here apart stops
      exact ⟨final, by rw [slot, operand, read]; rfl⟩
  | immediate | draw =>
      obtain ⟨final, read⟩ := literal_takes spelled.takes cursor last rest here apart stops
      exact ⟨final, by rw [slot, operand, read]; rfl⟩

theorem EndsInNumber.slots_eq (ends : EndsInNumber opcode field) :
    opcode.form.slots = opcode.form.slots.dropLast ++ [.operand field] := by
  cases ends with
  | address op | immediate op => cases op <;> rfl
  | draw => rfl

theorem EndsInNumber.fields_eq (ends : EndsInNumber opcode field) :
    opcode.fields = opcode.fields.dropLast ++ [field] := by
  cases ends <;> rfl

theorem EndsInNumber.fillsAll (ends : EndsInNumber opcode field)
    (admitted : List.Forall₂ Field.Admits opcode.fields.dropLast registers) :
    FillsAll opcode.form.slots.dropLast registers
      (slotTexts opcode.form.slots.dropLast registers) := by
  cases ends with
  | address op =>
      cases admitted
      cases op with
      | jump | call => exact .nil
      | loadIndex | jumpOffset => exact .cons (.fixed (by decide)) .nil
  | immediate op =>
      rcases admitted with _ | ⟨x, _ | _⟩
      cases op <;> exact .cons (.operand x) .nil
  | draw =>
      rcases admitted with _ | ⟨x, _ | ⟨y, _ | _⟩⟩
      exact .cons (.operand x) (.cons (.operand y) .nil)

theorem takesAll_literal (ends : EndsInNumber opcode field)
    (admitted : List.Forall₂ Field.Admits opcode.fields.dropLast registers)
    (spelled : Literal number literal.toList) :
    TakesAll opcode.form.slots ((registers ++ [(number : Int)]).map .number)
      (slotTexts opcode.form.slots.dropLast registers ++ [literal]) := by
  have front := (ends.fillsAll admitted).takesAll
  have last : Takes (slot (.operand field)) literal.toList
      ([Operand.number number].map .ok) := spelled.slot_takes ends
  have taken := front.concat last spelled.isSlotText
  rw [← ends.slots_eq] at taken
  rw [List.map_append]
  exact taken

/-! One command as a whole text. -/

theorem parse_command {mnemonic : String} {texts : List String} {item : Item}
    (opens : ∃ first more, mnemonic.toList = first :: more ∧ isSlotCharacter first = true)
    (isLine : IsLine mnemonic.toList) (areTexts : ∀ text ∈ texts, IsSlotText text.toList)
    (read : ∀ cursor : Cursor, cursor.skip =
      ⟨none, mnemonic.toList ++ ' ' :: ((", ".intercalate texts).toList ++ [])⟩ →
        ∃ final, cursor.item Production.all = some (.ok item, ⟨final, []⟩)) :
    parse (mnemonic ++ " " ++ ", ".intercalate texts) = .ok [item] := by
  have whole : (mnemonic ++ " " ++ ", ".intercalate texts).toList =
      mnemonic.toList ++ ' ' :: (", ".intercalate texts).toList := by simp
  obtain ⟨first, more, begins, part⟩ := opens
  have here : (start (mnemonic ++ " " ++ ", ".intercalate texts).toList).skip =
      ⟨none, mnemonic.toList ++ ' ' :: ((", ".intercalate texts).toList ++ [])⟩ := by
    rw [whole, begins, List.append_nil]
    exact skip_of_isSlotCharacter part
  obtain ⟨final, read⟩ := read _ here
  have tabless := (isLine_command isLine areTexts).tabless
  rw [← whole] at tabless
  rw [parse_eq_ok_iff, expandTabs_tabless tabless]
  exact ⟨_, .item read (.stay _), rfl⟩

theorem parse_literalText (ends : EndsInNumber opcode field)
    (admitted : List.Forall₂ Field.Admits opcode.fields.dropLast registers)
    (spelled : Literal number literal.toList) :
    parse (literalText opcode registers literal) =
      .ok [.instruction opcode ((registers ++ [(number : Int)]).map .number)] := by
  have taken := takesAll_literal ends admitted spelled
  refine parse_command (mnemonic_opens opcode) (isLine_mnemonic opcode) taken.areTexts
    fun cursor here => ?_
  -- Only the plain jump could be mistaken for another one, and its literal stands first.
  have alone (isJump : opcode = .address .jump) :
      slotTexts opcode.form.slots.dropLast registers = [] := by
    subst isJump
    cases ends
    cases admitted
    rfl
  obtain ⟨first, others, split⟩ := List.exists_cons_of_ne_nil
    (List.append_ne_nil_of_right_ne_nil (slotTexts opcode.form.slots.dropLast registers)
      (List.cons_ne_nil literal []))
  rw [split] at here taken
  refine item_of_texts taken here rfl follows_nil fun isJump => ?_
  rw [alone isJump] at split
  cases split
  exact spelled.digit

theorem Literals.areTexts (spelled : Literals numbers literals) :
    ∀ literal ∈ literals, IsSlotText literal.toList := by
  induction spelled with
  | nil => exact fun _ member => absurd member List.not_mem_nil
  | cons first _ ih => exact List.forall_mem_cons.mpr ⟨first.isSlotText, ih⟩

theorem parse_bytes (spelled : Literals numbers literals) (nonempty : numbers ≠ []) :
    parse ("DB" ++ " " ++ ", ".intercalate literals) =
      .ok [.bytes (numbers.map Int.ofNat)] := by
  have areTexts := spelled.areTexts
  have taken : List.Forall₂ (fun text value => Takes Cursor.number text.toList (.ok value))
      literals numbers := spelled.flip.imp fun _ _ first => first.takes
  cases spelled with
  | nil => exact absurd rfl nonempty
  | cons =>
      refine parse_command ⟨_, _, rfl, by decide⟩ (List.all_eq_true.mp (by decide)) areTexts ?_
      exact fun cursor here => item_of_bytes taken areTexts here rfl follows_nil

theorem parse_words (spelled : Literals numbers literals) (nonempty : numbers ≠ []) :
    parse ("DW" ++ " " ++ ", ".intercalate literals) =
      .ok [.words (numbers.map fun number : Nat => .number number)] := by
  have areTexts := spelled.areTexts
  have taken : List.Forall₂ (fun text value => Takes address text.toList (.ok value)) literals
      (numbers.map fun number : Nat => .number number) := by
    rw [List.forall₂_map_right_iff]
    exact spelled.flip.imp fun _ _ first => address_takes first.takes
  cases spelled with
  | nil => exact absurd rfl nonempty
  | cons =>
      refine parse_command ⟨_, _, rfl, by decide⟩ (List.all_eq_true.mp (by decide)) areTexts ?_
      exact fun cursor here => item_of_words taken areTexts here rfl follows_nil

/-! What is made of the numbers. -/

theorem assembleItems_single {item : Item} {command : Command}
    (added : ({} : Layout).add item = .ok (({} : Layout).place command)) :
    assembleItems [item] = (({} : Layout).place command).commandBytes command := by
  have listed : (({} : Layout).place command).commands.toList = [command] := rfl
  simp only [assembleItems, Layout.addAll, added, Layout.emit, listed]
  cases written : (({} : Layout).place command).commandBytes command with
  | error reason => simp [written, bind, Except.bind]
  | ok chunk => simp [written, pure, Except.pure, bind, Except.bind]

theorem EndsInNumber.admits (ends : EndsInNumber opcode field) {value : Int}
    (admitted : List.Forall₂ Field.Admits opcode.fields.dropLast registers)
    (fits : field.Admits value) : opcode.Admits (registers ++ [value]) := by
  rw [Opcode.Admits, ends.fields_eq]
  exact List.rel_append admitted (.cons fits .nil)

theorem fieldFault_last (ends : EndsInNumber opcode field) {value : Int}
    (admitted : List.Forall₂ Field.Admits opcode.fields.dropLast registers)
    (outside : ¬ field.Admits value) :
    FirstFault (fun _ => FieldFault opcode) (opcode.fields.zip (registers ++ [value]))
      (.operandRange opcode field value) := by
  obtain ⟨count, within⟩ := List.forall₂_iff_zip.mp admitted
  refine ⟨opcode.fields.dropLast.zip registers, (field, value), [], ?_, ?_, .range outside⟩
  · rw [ends.fields_eq, List.zip_append (by simpa using count)]
    simp
  · intro before entry after split reason fault
    obtain ⟨outside⟩ := fault
    exact outside (within (by rw [split]; simp))

theorem assembleItems_number (ends : EndsInNumber opcode field) {value : Int}
    (admitted : List.Forall₂ Field.Admits opcode.fields.dropLast registers)
    (fits : field.Admits value) :
    assembleItems [.instruction opcode ((registers ++ [value]).map .number)] =
      .ok (Layout.wordBytes (opcode.encode (registers ++ [value]))) := by
  rw [assembleItems_single rfl]
  refine bind_eq_ok_iff.mpr ⟨registers ++ [value], ?_, rfl⟩
  exact bind_eq_ok_iff.mpr ⟨_, mapM_resolve_numbers _ _,
    bind_eq_ok_iff.mpr ⟨(), checkOperands_of_admits (ends.admits admitted fits), rfl⟩⟩

theorem assembleItems_number_outside (ends : EndsInNumber opcode field) {value : Int}
    (admitted : List.Forall₂ Field.Admits opcode.fields.dropLast registers)
    (outside : ¬ field.Admits value) :
    assembleItems [.instruction opcode ((registers ++ [value]).map .number)] =
      .error (.report (.operandRange opcode field value)) := by
  have count : (registers ++ [value]).length = opcode.fields.length := by
    rw [ends.fields_eq, List.length_append, List.length_append, admitted.length_eq]
    rfl
  have refused := (Layout.checkOperands_eq_error_iff count).mpr
    ⟨_, fieldFault_last ends admitted outside, rfl⟩
  rw [assembleItems_single rfl]
  exact bind_ok_eq_error_iff.mpr (bind_eq_error_iff.mpr
    (Or.inr ⟨_, mapM_resolve_numbers _ _, bind_ok_eq_error_iff.mpr refused⟩))

theorem encode_number (ends : EndsInNumber opcode field) {value : Int}
    (admitted : List.Forall₂ Field.Admits opcode.fields.dropLast registers)
    (fits : field.Admits value) :
    ∃ word : UInt16, (word.toNat : Int) = opcode.encode (registers ++ [value]) ∧
      opcode.Matches word.toNat ∧ opcode.read word.toNat = registers ++ [value] ∧
        field.read word.toNat = value := by
  obtain ⟨found, read, low, high⟩ := Opcode.encode_fits (ends.admits admitted fits)
  generalize opcode.encode (registers ++ [value]) = word at found read low high
  obtain ⟨word, rfl⟩ := Int.eq_ofNat_of_zero_le low
  have whole : (UInt16.ofNat word).toNat = word := by
    rw [UInt16.toNat_ofNat']
    omega
  have last := read
  rw [Opcode.read, ends.fields_eq, List.map_append] at last
  refine ⟨UInt16.ofNat word, ?_⟩
  rw [whole]
  exact ⟨rfl, found, read, List.singleton_inj.mp (List.append_inj_right' last rfl)⟩

theorem byte_of_le {number : Nat} (fits : number ≤ 0xFF) :
    Layout.byte number = .ok (UInt8.ofNat number) := by
  have value := toNat_ofInt number
  rw [Layout.byte, if_pos (by omega), Except.ok.injEq, ← UInt8.toNat_inj, UInt8.toNat_ofNat']
  omega

theorem byte_of_large {number : Nat} (large : 0xFF < number) :
    Layout.byte number = .error (AsmError.byteRange number).raised :=
  if_neg (by omega)

theorem word_of_le (layout : Layout) {number : Nat} (fits : number ≤ 0xFFFF) :
    layout.word (.number number) = .ok (bigEndian (UInt16.ofNat number)) := by
  have whole : (UInt16.ofNat number).toNat = number := by
    rw [UInt16.toNat_ofNat']
    omega
  rw [Layout.word_eq_ok_iff]
  refine ⟨number, rfl, by omega, ?_⟩
  rw [← wordBytes_toNat, whole]

theorem word_of_large (layout : Layout) {number : Nat} (large : 0xFFFF < number) :
    layout.word (.number number) = .error (AsmError.wordRange number).raised :=
  if_neg (by omega)

theorem assembleItems_bytes (values : List Int) :
    assembleItems [.bytes values] = values.mapM Layout.byte := by
  cases converted : values.mapM Layout.byte with
  | error reason => simp [assembleItems, Layout.addAll, Layout.add, converted, bind, Except.bind]
  | ok bytes =>
      rw [assembleItems_single (by rw [Layout.add, converted]; rfl)]
      rfl

theorem map_eq_self {α : Type} {make : Nat → α} {read : α → Nat} {limit : Nat}
    (exact : ∀ number ≤ limit, read (make number) = number)
    (small : ∀ number ∈ numbers, number ≤ limit) : (numbers.map make).map read = numbers := by
  rw [List.map_map]
  exact (List.map_congr_left fun number member => exact number (small number member)).trans
    (List.map_id numbers)

theorem assembleItems_bytes_of_le (small : ∀ number ∈ numbers, number ≤ 0xFF) :
    ∃ program, assembleItems [.bytes (numbers.map Int.ofNat)] = .ok program ∧
      program.map UInt8.toNat = numbers := by
  refine ⟨numbers.map UInt8.ofNat, ?_, map_eq_self (fun number fits => ?_) small⟩
  · rw [assembleItems_bytes, mapM_eq_ok_iff, List.forall₂_map_left_iff,
      List.forall₂_map_right_iff]
    exact List.forall₂_same.mpr fun number member => byte_of_le (small number member)
  · rw [UInt8.toNat_ofNat']
    omega

theorem assembleItems_words_of_le (small : ∀ number ∈ numbers, number ≤ 0xFFFF) :
    ∃ program : List UInt16,
      assembleItems [.words (numbers.map fun number : Nat => .number number)] =
        .ok (program.flatMap bigEndian) ∧ program.map UInt16.toNat = numbers := by
  refine ⟨numbers.map UInt16.ofNat, ?_, map_eq_self (fun number fits => ?_) small⟩
  · rw [assembleItems_single rfl]
    refine bind_eq_ok_iff.mpr ⟨(numbers.map UInt16.ofNat).map bigEndian, ?_, rfl⟩
    rw [mapM_eq_ok_iff, List.forall₂_map_left_iff, List.map_map, List.forall₂_map_right_iff]
    exact List.forall₂_same.mpr fun number member => word_of_le _ (small number member)
  · rw [UInt16.toNat_ofNat']
    omega

theorem assembleItems_bytes_of_first (first : FirstAbove 0xFF numbers number) :
    assembleItems [.bytes (numbers.map Int.ofNat)] =
      .error (AsmError.byteRange number).raised := by
  obtain ⟨before, after, rfl, small, large⟩ := first
  rw [assembleItems_bytes, List.map_append, List.map_cons]
  refine mapM_eq_error_of_first ?_ (byte_of_large large)
  exact List.forall_mem_map.mpr fun earlier member => ⟨_, byte_of_le (small earlier member)⟩

theorem assembleItems_words_of_first (first : FirstAbove 0xFFFF numbers number) :
    assembleItems [.words (numbers.map fun number : Nat => .number number)] =
      .error (AsmError.wordRange number).raised := by
  obtain ⟨before, after, rfl, small, large⟩ := first
  rw [assembleItems_single rfl, List.map_append, List.map_cons]
  refine bind_ok_eq_error_iff.mpr (mapM_eq_error_of_first ?_ (word_of_large _ large))
  exact List.forall_mem_map.mpr fun earlier member => ⟨_, word_of_le _ (small earlier member)⟩

/-- A literal is taken for the whole number that it spells, however it does. In the place of an
    operand the number stands unchanged in the field if it is within the limit of the field, and
    else the report names the operation, the field and the number. Bytes and words of data are those
    numbers, and the first number that is too large is reported. -/
theorem assemble_literals :
    (∀ opcode field, EndsInNumber opcode field → ∀ registers,
      List.Forall₂ Field.Admits opcode.fields.dropLast registers →
        ∀ (number : Nat) (literal : String), Literal number literal.toList →
          let outcome := assemble (literalText opcode registers literal)
          (number ≤ field.limit → ∃ word : UInt16, outcome = .ok (bigEndian word) ∧
            (word.toNat : Int) = opcode.encode (registers ++ [(number : Int)]) ∧
              opcode.Matches word.toNat ∧ opcode.read word.toNat = registers ++ [(number : Int)] ∧
                field.read word.toNat = number) ∧
          (field.limit < number → ∃ error : AsmError, outcome = .error (.report error) ∧
            error.message = opcode.name ++ " operand " ++ field.name ++ "=" ++
              Numeral.markedHex number ++ " out of range")) ∧
    ∀ (numbers : List Nat) (literals : List String), Literals numbers literals → numbers ≠ [] →
      (∀ number ∈ numbers, Numeral.Writable number) →
        let bytes := assemble ("DB " ++ ", ".intercalate literals)
        let words := assemble ("DW " ++ ", ".intercalate literals)
        (((∀ number ∈ numbers, number ≤ 0xFF) →
            ∃ program, bytes = .ok program ∧ program.map UInt8.toNat = numbers) ∧
          ∀ number, FirstAbove 0xFF numbers number →
            ∃ error : AsmError, bytes = .error (.report error) ∧
              error.message = "Byte " ++ Numeral.decimal number ++ " out of range") ∧
        ((∀ number ∈ numbers, number ≤ 0xFFFF) →
            ∃ program : List UInt16, words = .ok (program.flatMap bigEndian) ∧
              program.map UInt16.toNat = numbers) ∧
          ∀ number, FirstAbove 0xFFFF numbers number →
            ∃ error : AsmError, words = .error (.report error) ∧
              error.message = "Word " ++ Numeral.decimal number ++ " out of range" := by
  constructor
  · intro opcode field ends registers admitted number literal spelled outcome
    have parsed := parse_literalText ends admitted spelled
    refine ⟨fun fits => ?_, fun large => ?_⟩
    · have fits : field.Admits number := ⟨Int.natCast_nonneg number, Int.ofNat_le.mpr fits⟩
      obtain ⟨word, encoded, carried⟩ := encode_number ends admitted fits
      refine ⟨word, ?_, encoded, carried⟩
      rw [← wordBytes_toNat, encoded]
      exact (assemble_of_parse parsed).trans (assembleItems_number ends admitted fits)
    · have outside : ¬ field.Admits number := fun fits =>
        Nat.not_le.mpr large (Int.ofNat_le.mp fits.2)
      have refused := assembleItems_number_outside ends admitted outside
      exact ⟨_, (assemble_of_parse parsed).trans refused, rfl⟩
  · intro numbers literals spelled nonempty small bytes words
    have bytesOf : bytes = _ := assemble_of_parse (parse_bytes spelled nonempty)
    have wordsOf : words = _ := assemble_of_parse (parse_words spelled nonempty)
    have writable {limit number : Nat} (first : FirstAbove limit numbers number) :
        Numeral.Writable number := by
      obtain ⟨before, after, rfl, _⟩ := first
      exact small number (by simp)
    rw [bytesOf, wordsOf]
    refine ⟨⟨assembleItems_bytes_of_le, fun number first => ⟨.byteRange number, ?_, rfl⟩⟩,
      assembleItems_words_of_le, fun number first => ⟨.wordRange number, ?_, rfl⟩⟩
    · exact (assembleItems_bytes_of_first first).trans (congrArg _ (if_pos (writable first)))
    · exact (assembleItems_words_of_first first).trans (congrArg _ (if_pos (writable first)))

/-- A jump as far as there are addresses, in decimal with zeros in front, a byte one above its limit
    in binary, and data with the first number at the limit and the second above it. -/
theorem assemble_literals_at_limit :
    (Literal 0xFFF "0004095".toList ∧ assemble "JP 0004095" = .ok [0x1F, 0xFF]) ∧
      (Literal 0x100 "0B0100000000".toList ∧
        ∃ error : AsmError, assemble "SE V3, 0B0100000000" = .error (.report error) ∧
          error.message = "SeByte operand byte=0x100 out of range") ∧
        ∃ error : AsmError, assemble "DB 0xfF, 0B0100000000" = .error (.report error) ∧
          error.message = "Byte 256 out of range" := by
  have short : 7 ≤ Numeral.digitLimit := by rw [Numeral.digitLimit]; decide
  have decimal : Literal 0xFFF "0004095".toList :=
    .decimal ⟨by decide, List.all_eq_true.mp (by decide), by decide⟩ short
  have hexadecimal : Literal 0xFF "0xfF".toList :=
    .marked (show (16, 'x') ∈ baseMarks by decide)
      ⟨by decide, List.all_eq_true.mp (by decide), by decide⟩
  have binary : Literal 0x100 "0B0100000000".toList :=
    .marked (show (2, 'B') ∈ baseMarks by decide)
      ⟨by decide, List.all_eq_true.mp (by decide), by decide⟩
  have small : ∀ number ∈ [0xFF, 0x100], Numeral.Writable (number : Nat) := by decide +kernel
  obtain ⟨operands, data⟩ := assemble_literals
  obtain ⟨word, assembled, encoded, _⟩ :=
    (operands _ _ (.address .jump) [] .nil 0xFFF "0004095" decimal).1 (by decide)
  obtain ⟨error, refused, told⟩ := (operands _ _ (.immediate .skipEqual) [3]
    (.cons (by decide) .nil) 0x100 "0B0100000000" binary).2 (by decide)
  have text : literalText (.immediate .skipEqual) [3] "0B0100000000" = "SE V3, 0B0100000000" := by
    decide +kernel
  rw [text] at refused
  have listed : Literals [0xFF, 0x100] ["0xfF", "0B0100000000"] :=
    .cons hexadecimal (.cons binary .nil)
  have first : FirstAbove 0xFF [0xFF, 0x100] 0x100 := ⟨[0xFF], [], rfl, by decide, by decide⟩
  obtain ⟨other, failed, toldToo⟩ := (data _ _ listed (by decide) small).1.2 0x100 first
  have jump : word = 0x1FFF := by
    apply UInt16.toNat_inj.mp
    exact Int.ofNat_inj.mp (encoded.trans (by decide))
  subst jump
  exact ⟨⟨decimal, assembled⟩, ⟨binary, error, refused, told.trans (by decide +kernel)⟩, other,
    failed, toldToo.trans (by decide +kernel)⟩

end Chip8.Assembly
