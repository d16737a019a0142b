import Chip8.Proofs.Assembly.Choice
import Chip8.Proofs.Instruction.Decoding
import Chip8.Proofs.Numeral

namespace Chip8.Assembly

/-! The printed form of an instruction is read back slot by slot. A reader is said to take a text
    when it reads all of it and nothing more, wherever the next token begins there. -/

namespace Cursor

/-- What can stand behind a slot: a comma, a blank or the beginning of a comment. -/
def isBreak (character : Char) : Bool :=
  !isInk character || character == ','

def Stops (rest : List Char) : Prop :=
  rest.head?.all isBreak = true

/-- What slots and mnemonics consist of. -/
def isSlotCharacter (character : Char) : Bool :=
  isInk character && character != ',' && character != ':'

def Takes {α : Type} (read : Cursor → Option (α × Cursor)) (text : List Char) (value : α) : Prop :=
  ∀ cursor last rest, cursor.skip = ⟨last, text ++ rest⟩ → last.any clingsToKeyword = false →
    Stops rest → ∃ final, read cursor = some (value, ⟨final, rest⟩)

variable {cursor : Cursor} {last : Option Char} {rest : List Char}

theorem break_cases {character : Char} (breaks : isBreak character = true) :
    character ∈ [' ', '\n', '\r', '\t', ';', '/', ','] := by
  simp only [isBreak, isInk, isBlank, Bool.or_eq_true, Bool.not_eq_true', Bool.and_eq_false_iff,
    bne_eq_false_iff_eq, beq_iff_eq, Bool.not_eq_false'] at breaks
  simp only [List.mem_cons, List.not_mem_nil, or_false]
  tauto

/-- A kind of which no break is says nothing about what stands behind a slot. -/
theorem Stops.any_eq_false {kind : Char → Bool} (stops : Stops rest)
    (none : [' ', '\n', '\r', '\t', ';', '/', ','].all fun character => !kind character) :
    rest.head?.any kind = false := by
  cases rest with
  | nil => rfl
  | cons character more =>
      have listed := break_cases (show isBreak character = true from stops)
      simpa using List.all_eq_true.mp none character listed

theorem stops_comma (rest : List Char) : Stops (',' :: rest) := rfl

theorem isInk_of_isSlotCharacter {character : Char} (part : isSlotCharacter character = true) :
    isInk character = true := by
  simp only [isSlotCharacter, Bool.and_eq_true] at part
  exact part.1.1

theorem digit_isSlotCharacter {base : Nat} {character : Char}
    (digit : (Numeral.digitValue? base character).isSome = true) :
    isSlotCharacter character = true := by
  by_contra misfit
  simp only [isSlotCharacter, isInk, isBlank, Bool.and_eq_true, Bool.not_eq_true', bne_iff_ne,
    Bool.or_eq_false_iff, beq_eq_false_iff_ne, not_and_or, not_not, or_assoc] at misfit
  rcases misfit with rfl | rfl | rfl | rfl | rfl | rfl | rfl | rfl
  all_goals exact absurd digit Bool.false_ne_true

theorem skip_of_isSlotCharacter {character : Char} (part : isSlotCharacter character = true) :
    skip ⟨last, character :: rest⟩ = ⟨last, character :: rest⟩ :=
  skip_of_ink (isInk_of_isSlotCharacter part)

theorem skip_of_blank {character : Char} (blank : isBlank character = true) :
    skip ⟨last, character :: rest⟩ = skip ⟨some character, rest⟩ := by
  simp only [skip, skipFrom, Bool.false_and, Bool.false_eq_true, if_false, blank, if_true]

theorem keyword_of_text {word : String} (plain : word.toList.map capital = word.toList)
    (here : cursor.skip = ⟨last, word.toList ++ rest⟩) (apart : last.any clingsToKeyword = false)
    (ending : rest.head?.any clingsToKeyword = false) :
    keyword word cursor = some ⟨word.toList.getLast?.or last, rest⟩ := by
  rw [keyword_eq_some_iff, here]
  exact ⟨apart, letters_eq_some_iff.mpr ⟨_, rfl, plain, rfl⟩, ending⟩

theorem symbol_of_text {character : Char} (here : cursor.skip = ⟨last, character :: rest⟩) :
    symbol character cursor = some ⟨some character, rest⟩ := by
  rw [symbol_eq_some_iff, here]
  exact ⟨rfl, rfl⟩

/-- Digits are read if they are no decimal digits, or not too many. -/
theorem spelled_of_isNumeral {base number : Nat} {text : List Char}
    (isNumeral : Numeral.IsNumeral base number text)
    (short : base = 10 → text.length ≤ Numeral.digitLimit) :
    spelled base (text.filterMap (Numeral.digitValue? base)) = .ok number := by
  rw [spelled, if_pos, isNumeral.value]
  exact fun decimal => Nat.le_trans (List.length_filterMap_le _ _) (short decimal)

theorem numeral_of_text {base number : Nat} {text : List Char} (last : Option Char)
    (spelled : Numeral.IsNumeral base number text)
    (short : base = 10 → text.length ≤ Numeral.digitLimit) (stops : Stops rest) :
    ∃ final, numeral base ⟨last, text ++ rest⟩ = some (.ok number, ⟨final, rest⟩) := by
  refine ⟨_, numeral_eq_some_iff.mpr
    ⟨text, spelled.nonempty, rfl, spelled.digits, ?_, ?_, rfl⟩⟩
  · exact stops.any_eq_false rfl
  · exact (spelled_of_isNumeral spelled short).symm

/-- The bases that have marks, with each of their marks. -/
def baseMarks : List (Nat × Char) := [(16, 'x'), (16, 'X'), (2, 'b'), (2, 'B')]

theorem number_takes_marked {base value : Nat} {mark : Char} {text : List Char}
    (marks : (base, mark) ∈ baseMarks) (spelled : Numeral.IsNumeral base value text) :
    Takes number ('0' :: mark :: text) (.ok value) := by
  intro cursor last rest here apart stops
  have binary : base ≠ 10 := by
    rintro rfl
    simp [baseMarks] at marks
  obtain ⟨final, read⟩ := numeral_of_text (some mark) spelled (absurd · binary) stops
  refine ⟨final, ?_⟩
  simp only [baseMarks, List.mem_cons, List.not_mem_nil, or_false, Prod.mk.injEq] at marks
  rcases marks with ⟨rfl, rfl⟩ | ⟨rfl, rfl⟩ | ⟨rfl, rfl⟩ | ⟨rfl, rfl⟩ <;>
    simp [number, here, marked, eat, read]

/-- A base mark is neither a decimal digit nor a break, so it cannot follow the first digit. -/
theorem marked_of_decimal {base value : Nat} {isMark : Char → Bool} {text : List Char}
    (spelled : Numeral.IsNumeral 10 value text) (stops : Stops rest)
    (marks : ∀ character, isMark character = true → character ∈ ['x', 'X', 'b', 'B']) :
    marked base isMark ⟨last, text ++ rest⟩ = none := by
  rw [Option.eq_none_iff_forall_ne_some]
  intro found read
  obtain ⟨_, afterZero, mark, afterMark, zeroEaten, markEaten, _⟩ := marked_eq_some_iff.mp read
  obtain ⟨_, whole, _⟩ := eat_eq_some_iff.mp zeroEaten
  obtain ⟨isMarked, second, _⟩ := eat_eq_some_iff.mp markEaten
  have unlike : (['x', 'X', 'b', 'B'].all fun mark =>
      !isBreak mark && !isDigitOf 10 mark) = true := by decide
  have markUnlike := List.all_eq_true.mp unlike mark (marks mark isMarked)
  rw [Bool.and_eq_true, Bool.not_eq_true', Bool.not_eq_true'] at markUnlike
  obtain ⟨notBreak, notDigit⟩ := markUnlike
  cases text with
  | nil => exact spelled.nonempty rfl
  | cons first more =>
      have behind : more ++ rest = mark :: afterMark.rest := by
        rw [← second]
        exact (List.cons.inj whole).2
      cases more with
      | nil =>
          rw [List.nil_append] at behind
          rw [Stops, behind, List.head?_cons, Option.all_some, notBreak] at stops
          contradiction
      | cons other further =>
          have digit := spelled.digits other (by simp)
          rw [(List.cons.inj behind).1] at digit
          rw [isDigitOf, digit] at notDigit
          cases notDigit

theorem number_takes_decimal {value : Nat} {text : List Char}
    (spelled : Numeral.IsNumeral 10 value text) (short : text.length ≤ Numeral.digitLimit) :
    Takes number text (.ok value) := by
  intro cursor last rest here apart stops
  obtain ⟨final, read⟩ := numeral_of_text last spelled (fun _ => short) stops
  refine ⟨final, ?_⟩
  simp only [number, here, read]
  rw [marked_of_decimal spelled stops (by simp), marked_of_decimal spelled stops (by simp)]
  rfl

theorem literal_takes {value : Nat} {text : List Char} (spelled : Takes number text (.ok value)) :
    Takes literal text (.ok (.number value)) := by
  intro cursor last rest here apart stops
  obtain ⟨final, read⟩ := spelled cursor last rest here apart stops
  exact ⟨final, literal_eq_some_iff.mpr ⟨_, read, rfl⟩⟩

theorem address_takes {value : Nat} {text : List Char} (spelled : Takes number text (.ok value)) :
    Takes address text (.ok (.number value)) := by
  intro cursor last rest here apart stops
  obtain ⟨final, read⟩ := literal_takes spelled cursor last rest here apart stops
  exact ⟨final, address_eq_some_iff.mpr (Or.inl read)⟩

theorem register_takes {value : Nat} (small : value < 16) :
    Takes register ('V' :: [Numeral.upperDigit value]) value := by
  intro cursor last rest here apart stops
  have digit : Numeral.digitValue? 16 (Numeral.upperDigit value) = some value :=
    Numeral.digitValue?_upperDigit (Nat.le_refl 16) small
  refine ⟨some (Numeral.upperDigit value), register_eq_some_iff.mpr
    ⟨'V', Numeral.upperDigit value, by rw [here]; rfl, rfl, ?_, ?_, ?_, rfl⟩⟩
  · rw [isDigitOf, digit]
    rfl
  · exact stops.any_eq_false (by decide)
  · rw [digit]
    rfl

theorem register_text {value : Nat} (small : value < 16) :
    ("V" ++ Numeral.hex 0 value).toList = 'V' :: [Numeral.upperDigit value] := by
  rw [String.toList_append, Numeral.hex, Numeral.signed_natCast, Numeral.digits_of_lt small]
  rfl

theorem hex_isNumeral (width value : Nat) :
    Numeral.IsNumeral 16 value (Numeral.hex width value).toList :=
  Numeral.isNumeral_signed (by decide) (by decide) width value

theorem decimal_isNumeral (value : Nat) :
    Numeral.IsNumeral 10 value (Numeral.decimal value).toList :=
  Numeral.isNumeral_signed (by decide) (by decide) 0 value

theorem marked_text (text : String) : ("0x" ++ text).toList = '0' :: 'x' :: text.toList := by
  rw [String.toList_append]
  rfl

theorem length_decimal_le {value : Nat} (small : value < 16) :
    (Numeral.decimal value).toList.length ≤ Numeral.digitLimit := by
  have fromTable : ∀ value < 16, (Numeral.decimal (value : Nat)).toList.length ≤ 2 := by
    decide +kernel
  refine Nat.le_trans (fromTable value small) ?_
  rw [Numeral.digitLimit]
  decide

theorem operand_takes {field : Field} {value : Int} (admitted : field.Admits value) :
    Takes (operand field) (field.text value).toList (.ok (.number value)) := by
  obtain ⟨value, rfl⟩ := Int.eq_ofNat_of_zero_le admitted.1
  cases field with
  | x | y =>
      have small : value < 16 := by
        simp only [Field.Admits, Field.limit] at admitted
        omega
      rw [Field.text, register_text small]
      intro cursor last rest here apart stops
      obtain ⟨final, read⟩ := register_takes small cursor last rest here apart stops
      exact ⟨final, by rw [operand, read]; rfl⟩
  | n =>
      have small : value < 16 := by
        simp only [Field.Admits, Field.limit] at admitted
        omega
      exact literal_takes (number_takes_decimal (decimal_isNumeral value) (length_decimal_le small))
  | byte =>
      rw [Field.text, marked_text]
      exact literal_takes (number_takes_marked (by decide) (hex_isNumeral 2 value))
  | addr =>
      rw [Field.text, marked_text]
      exact address_takes (number_takes_marked (by decide) (hex_isNumeral 3 value))

def IsSlotText (text : List Char) : Prop :=
  text ≠ [] ∧ ∀ character ∈ text, isSlotCharacter character = true

theorem IsSlotText.of_numeral {base value : Nat} {text : List Char}
    (spelled : Numeral.IsNumeral base value text) : IsSlotText text :=
  ⟨spelled.nonempty, fun character member => digit_isSlotCharacter (spelled.digits character member)⟩

theorem IsSlotText.cons {character : Char} {text : List Char}
    (part : isSlotCharacter character = true) (isText : IsSlotText text) :
    IsSlotText (character :: text) :=
  ⟨List.cons_ne_nil _ _, List.forall_mem_cons.mpr ⟨part, isText.2⟩⟩

theorem isSlotText_operand {field : Field} {value : Int} (admitted : field.Admits value) :
    IsSlotText (field.text value).toList := by
  obtain ⟨value, rfl⟩ := Int.eq_ofNat_of_zero_le admitted.1
  cases field with
  | x | y =>
      rw [Field.text, String.toList_append]
      exact (IsSlotText.of_numeral (hex_isNumeral 0 value)).cons (by decide)
  | n => exact .of_numeral (decimal_isNumeral value)
  | byte | addr =>
      rw [Field.text, marked_text]
      exact ((IsSlotText.of_numeral (hex_isNumeral _ value)).cons (by decide)).cons (by decide)

/-- The fixed words of all forms. -/
def fixedSlots : List (List String) :=
  [["I"], ["V0"], ["DT"], ["K"], ["ST"], ["F"], ["B"], ["[", "I", "]"]]

theorem isSlotText_fixed {words : List String} (listed : words ∈ fixedSlots) :
    IsSlotText (String.join words).toList := by
  have fromTable : ∀ words ∈ fixedSlots, (String.join words).toList ≠ [] ∧
      (String.join words).toList.all isSlotCharacter = true := by decide
  obtain ⟨nonempty, characters⟩ := fromTable words listed
  exact ⟨nonempty, List.all_eq_true.mp characters⟩

theorem atIndex_of_text (here : cursor.skip = ⟨last, '[' :: 'I' :: ']' :: rest⟩) :
    fixedWords ["[", "I", "]"] cursor = some ⟨some ']', rest⟩ := by
  have opening := symbol_of_text here
  have index : keyword "I" ⟨some '[', 'I' :: ']' :: rest⟩ = some ⟨some 'I', ']' :: rest⟩ :=
    keyword_of_text (by decide) (skip_of_ink (by decide)) (by decide) rfl
  have closing : symbol ']' ⟨some 'I', ']' :: rest⟩ = some ⟨some ']', rest⟩ :=
    symbol_of_text (skip_of_ink (by decide))
  simp [fixedWords, fixedWord, opening, index, closing]

theorem fixedWords_of_text {words : List String} (listed : words ∈ fixedSlots)
    (here : cursor.skip = ⟨last, (String.join words).toList ++ rest⟩)
    (apart : last.any clingsToKeyword = false) (stops : Stops rest) :
    ∃ final, fixedWords words cursor = some ⟨final, rest⟩ := by
  have fromTable : ∀ words ∈ fixedSlots, words = ["[", "I", "]"] ∨ ∃ word, words = [word] ∧
      word ≠ "[" ∧ word ≠ "]" ∧ word.toList.map capital = word.toList := by
    simp only [fixedSlots, List.forall_mem_cons]
    refine ⟨?_, ?_, ?_, ?_, ?_, ?_, ?_, by simp⟩ <;>
      exact Or.inr ⟨_, rfl, by decide, by decide, by decide⟩
  rcases fromTable words listed with rfl | ⟨word, rfl, notOpening, notClosing, plain⟩
  · exact ⟨_, atIndex_of_text here⟩
  · rw [String.join_cons, String.join_nil, String.append_empty] at here
    have read := keyword_of_text plain here apart (stops.any_eq_false (by decide))
    refine ⟨word.toList.getLast?.or last, ?_⟩
    simp only [fixedWords, fixedWord, if_neg notOpening, if_neg notClosing, read]
    rfl

theorem skip_of_space {text : List Char} (last : Option Char) (isText : IsSlotText text) :
    skip ⟨last, ' ' :: (text ++ rest)⟩ = ⟨some ' ', text ++ rest⟩ := by
  obtain ⟨nonempty, characters⟩ := isText
  obtain ⟨first, more, rfl⟩ := List.exists_cons_of_ne_nil nonempty
  rw [skip_of_blank (by decide), List.cons_append]
  exact skip_of_isSlotCharacter (characters first (by simp))

theorem toList_intercalate_cons (separator first : String) (texts : List String) :
    (separator.intercalate (first :: texts)).toList =
      first.toList ++ texts.flatMap fun text => separator.toList ++ text.toList := by
  induction texts generalizing first with
  | nil => simp
  | cons second texts ih =>
      rw [String.intercalate_cons_cons, String.toList_append, String.toList_append, ih]
      simp

/-- What is printed for the slots after the first one. -/
def furtherTexts (texts : List String) : List Char :=
  texts.flatMap fun text => ", ".toList ++ text.toList

theorem toList_slots (first : String) (texts : List String) :
    (", ".intercalate (first :: texts)).toList = first.toList ++ furtherTexts texts :=
  toList_intercalate_cons ", " first texts

theorem stops_furtherTexts (texts : List String) (stops : Stops rest) :
    Stops (furtherTexts texts ++ rest) := by
  cases texts with
  | nil => exact stops
  | cons text texts => exact stops_comma _

/-- The text of a slot and the operands that it takes up. -/
inductive Fills : Slot → List Int → String → Prop
  | operand {field : Field} {value : Int} (admitted : field.Admits value) :
      Fills (.operand field) [value] (field.text value)
  | fixed {words : List String} (listed : words ∈ fixedSlots) :
      Fills (.fixed words) [] (String.join words)

theorem Fills.isSlotText {shape : Slot} {values : List Int} {text : String}
    (filled : Fills shape values text) : IsSlotText text.toList := by
  cases filled with
  | operand admitted => exact isSlotText_operand admitted
  | fixed listed => exact isSlotText_fixed listed

theorem Fills.takes {shape : Slot} {values : List Int} {text : String}
    (filled : Fills shape values text) :
    Takes (slot shape) text.toList (values.map fun value => .ok (.number value)) := by
  intro cursor last rest here apart stops
  cases filled with
  | operand admitted =>
      obtain ⟨final, read⟩ := operand_takes admitted cursor last rest here apart stops
      exact ⟨final, by rw [slot, read]; rfl⟩
  | fixed listed =>
      obtain ⟨final, read⟩ := fixedWords_of_text listed here apart stops
      exact ⟨final, by rw [slot, read]; rfl⟩

inductive FillsAll : List Slot → List Int → List String → Prop
  | nil : FillsAll [] [] []
  | cons {shape : Slot} {shapes : List Slot} {values more : List Int} {text : String}
      {texts : List String} (first : Fills shape values text)
      (further : FillsAll shapes more texts) :
      FillsAll (shape :: shapes) (values ++ more) (text :: texts)

theorem fillsAll_form {opcode : Opcode} {operands : List Int}
    (admitted : opcode.Admits operands) :
    FillsAll opcode.form.slots operands (slotTexts opcode.form.slots operands) := by
  cases opcode with
  | bare op =>
      cases admitted
      cases op <;> exact .nil
  | address op =>
      rcases admitted with _ | ⟨addr, _ | _⟩
      cases op with
      | jump | call => exact .cons (.operand addr) .nil
      | loadIndex | jumpOffset => exact .cons (.fixed (by decide)) (.cons (.operand addr) .nil)
  | immediate op =>
      rcases admitted with _ | ⟨x, _ | ⟨byte, _ | _⟩⟩
      cases op <;> exact .cons (.operand x) (.cons (.operand byte) .nil)
  | draw =>
      rcases admitted with _ | ⟨x, _ | ⟨y, _ | ⟨n, _ | _⟩⟩⟩
      exact .cons (.operand x) (.cons (.operand y) (.cons (.operand n) .nil))
  | pair op =>
      rcases admitted with _ | ⟨x, _ | ⟨y, _ | _⟩⟩
      cases op <;> exact .cons (.operand x) (.cons (.operand y) .nil)
  | register op =>
      rcases admitted with _ | ⟨x, _ | _⟩
      cases op with
      | skipPressed | skipReleased => exact .cons (.operand x) .nil
      | readDelay | awaitKey | load =>
          exact .cons (.operand x) (.cons (.fixed (by decide)) .nil)
      | setDelay | setSound | addIndex | glyph | digits | store =>
          exact .cons (.fixed (by decide)) (.cons (.operand x) .nil)

/-- Texts that slots take, one each, and the operands that they give. -/
inductive TakesAll : List Slot → List Operand → List String → Prop
  | nil : TakesAll [] [] []
  | cons {shape : Slot} {shapes : List Slot} {operands more : List Operand} {text : String}
      {texts : List String} (first : Takes (slot shape) text.toList (operands.map .ok))
      (isText : IsSlotText text.toList) (further : TakesAll shapes more texts) :
      TakesAll (shape :: shapes) (operands ++ more) (text :: texts)

variable {shapes : List Slot} {operands : List Operand} {text : String} {texts : List String}

theorem FillsAll.takesAll {values : List Int} (filled : FillsAll shapes values texts) :
    TakesAll shapes (values.map .number) texts := by
  induction filled with
  | nil => exact .nil
  | cons first _ ih =>
      rw [List.map_append]
      refine .cons ?_ first.isSlotText ih
      rw [List.map_map]
      exact first.takes

theorem TakesAll.areTexts (taken : TakesAll shapes operands texts) :
    ∀ text ∈ texts, IsSlotText text.toList := by
  induction taken with
  | nil => exact fun _ member => absurd member List.not_mem_nil
  | cons _ isText _ ih => exact List.forall_mem_cons.mpr ⟨isText, ih⟩

theorem TakesAll.concat {shape : Slot} {more : List Operand}
    (taken : TakesAll shapes operands texts)
    (last : Takes (slot shape) text.toList (more.map .ok))
    (isText : IsSlotText text.toList) :
    TakesAll (shapes ++ [shape]) (operands ++ more) (texts ++ [text]) := by
  induction taken with
  | nil =>
      have single : TakesAll [shape] (more ++ []) [text] := .cons last isText .nil
      rwa [List.append_nil] at single
  | cons first isFirst _ ih =>
      rw [List.append_assoc]
      exact .cons first isFirst ih

theorem comma_of_text (last : Option Char) (text : String) (texts : List String)
    (rest : List Char) : symbol ',' ⟨last, furtherTexts (text :: texts) ++ rest⟩ =
      some ⟨some ',', ' ' :: (text.toList ++ (furtherTexts texts ++ rest))⟩ := by
  apply symbol_of_text
  simp only [furtherTexts, List.flatMap_cons, List.append_assoc]
  exact skip_of_ink (by decide)

theorem furtherSlots_of_text (last : Option Char) (taken : TakesAll shapes operands texts)
    (stops : Stops rest) :
    ∃ final, furtherSlots shapes ⟨last, furtherTexts texts ++ rest⟩ =
      some (operands.map .ok, ⟨final, rest⟩) := by
  induction taken generalizing last with
  | nil => exact ⟨last, rfl⟩
  | @cons shape shapes operands more text texts first isText _ ih =>
      obtain ⟨afterSlot, read⟩ := first _ _ (furtherTexts texts ++ rest)
        (skip_of_space (some ',') isText) (by decide) (stops_furtherTexts texts stops)
      obtain ⟨final, others⟩ := ih afterSlot
      exact ⟨final, furtherSlots_cons_eq_some_iff.mpr
        ⟨_, _, _, _, comma_of_text last text texts rest, read, others, List.map_append⟩⟩

theorem slots_of_text (last : Option Char) (taken : TakesAll shapes operands (text :: texts))
    (stops : Stops rest) :
    ∃ final, slots shapes
        ⟨last, ' ' :: ((", ".intercalate (text :: texts)).toList ++ rest)⟩ =
      some (operands.map .ok, ⟨final, rest⟩) := by
  cases taken with
  | cons first isText further =>
      rw [toList_slots, List.append_assoc]
      obtain ⟨afterSlot, read⟩ := first _ _ (furtherTexts texts ++ rest)
        (skip_of_space last isText) (by decide) (stops_furtherTexts texts stops)
      obtain ⟨final, others⟩ := furtherSlots_of_text afterSlot further stops
      exact ⟨final, slots_cons_eq_some_iff.mpr ⟨_, _, _, read, others, List.map_append⟩⟩

/-- What can stand behind an item: a break, and then a character that continues no item. -/
def Follows (rest : List Char) : Prop :=
  Stops rest ∧ ∀ character, (⟨none, rest⟩ : Cursor).ahead = some character →
    isSlotCharacter character = true

theorem Follows.ahead_ne {character : Char} (follows : Follows rest)
    (foreign : isSlotCharacter character = false) :
    (⟨last, rest⟩ : Cursor).ahead ≠ some character := by
  intro here
  have same : (⟨none, rest⟩ : Cursor).ahead = some character := by
    have skipped : (⟨none, rest⟩ : Cursor).skip.rest = (⟨last, rest⟩ : Cursor).skip.rest :=
      skip_rest_congr rfl
    rw [ahead, skipped, ← here, ahead]
  have part := follows.2 character same
  rw [foreign] at part
  contradiction

theorem mnemonic_plain (opcode : Opcode) :
    opcode.form.mnemonic.toList.map capital = opcode.form.mnemonic.toList := by
  cases opcode with
  | draw => decide
  | _ op => cases op <;> decide

end Cursor

namespace Production

/-- The production that reads the printed form of an operation. -/
def of : Opcode → Production
  | .pair .shiftRight => shift (.pair .shiftRight)
  | .pair .shiftLeft => shift (.pair .shiftLeft)
  | opcode => instruction opcode

theorem of_listed (opcode : Opcode) : of opcode ∈ all := by
  cases opcode with
  | draw => decide
  | _ op => cases op <;> decide

theorem mnemonic_of (opcode : Opcode) : (of opcode).mnemonic = opcode.form.mnemonic := by
  cases opcode with
  | draw => rfl
  | _ op => cases op <;> rfl

open Cursor

variable {cursor next final : Cursor} {opcode : Opcode} {operands : List Operand}

theorem shift_read (mnemonic : keyword opcode.form.mnemonic cursor = some next)
    (read : slots [.x, .y] next = some (operands.map .ok, final)) :
    (shift opcode).read cursor = some (.ok (.instruction opcode operands), final) := by
  simp only [slots, furtherSlots, slot, Slot.x, Slot.y, operand, Option.bind_eq_bind,
    Option.bind_eq_some_iff, Option.map_eq_some_iff, Prod.exists, Prod.mk.injEq,
    Option.some.injEq] at read
  obtain ⟨_, _, ⟨_, _, ⟨x, _, first, rfl, rfl⟩, rfl, rfl⟩, _, _,
    ⟨_, comma, _, _, ⟨_, _, ⟨y, _, second, rfl, rfl⟩, rfl, rfl⟩, _, _, ⟨rfl, rfl⟩, rfl, rfl⟩,
      both, rfl⟩ := read
  obtain rfl : operands = [.number x, .number y] :=
    (List.map_inj_right fun _ _ => Except.ok.inj).mp both.symm
  simp [Production.read, mnemonic, first, comma, second]

theorem of_read (mnemonic : keyword opcode.form.mnemonic cursor = some next)
    (read : slots opcode.form.slots next = some (operands.map .ok, final)) :
    (of opcode).read cursor = some (.ok (.instruction opcode operands), final) := by
  have plain :
      (instruction opcode).read cursor = some (.ok (.instruction opcode operands), final) :=
    read_instruction_iff.mpr ⟨_, _, mnemonic, read, by rw [gather_map_ok]; rfl⟩
  cases opcode with
  | pair op =>
      cases op with
      | shiftRight | shiftLeft => exact shift_read mnemonic read
      | _ => exact plain
  | _ => exact plain

/-- Behind the mnemonic of both jumps, a digit cannot be the beginning of V0. -/
theorem offsetJump_read_eq_none (mnemonic : keyword "JP" cursor = some next)
    (digit : next.ahead.any (isDigitOf 10) = true) : offsetJump.read cursor = none := by
  rw [Option.eq_none_iff_forall_ne_some]
  intro found read
  obtain ⟨_, _, sameMnemonic, filled, _⟩ := read_instruction_iff.mp read
  cases mnemonic.symm.trans sameMnemonic
  obtain ⟨_, _, _, first, _⟩ := slots_cons_eq_some_iff.mp filled
  obtain ⟨character, here, opens⟩ := slot_opens first (by decide)
  rw [here, Option.any_some] at digit
  have isV : capital character = 'V' := List.mem_singleton.mp opens
  exact forall_ascii (fun character => isDigitOf 10 character = true → capital character ≠ 'V')
    (by decide +kernel) character (isDigitOf_ascii digit) digit isV

theorem of_eq_jump (same : of opcode = jump) : opcode = .address .jump := by
  cases opcode with
  | pair op => cases op <;> exact absurd same (by decide)
  | _ => exact (instruction.inj same)

end Production

theorem text_of_nil {opcode : Opcode} {operands : List Int}
    (bare : slotTexts opcode.form.slots operands = []) :
    opcode.text operands = opcode.form.mnemonic := by
  simp only [Opcode.text, bare, List.isEmpty_nil, if_true]

theorem text_of_cons {opcode : Opcode} {operands : List Int} {text : String} {texts : List String}
    (printed : slotTexts opcode.form.slots operands = text :: texts) :
    (opcode.text operands).toList =
      opcode.form.mnemonic.toList ++ ' ' :: (", ".intercalate (text :: texts)).toList := by
  simp only [Opcode.text, printed, List.isEmpty_cons, Bool.false_eq_true, if_false,
    String.toList_append, List.append_assoc]
  rfl

namespace Cursor

variable {cursor : Cursor} {last : Option Char} {rest : List Char}

theorem ahead_of_space {text : List Char} (last : Option Char) (isText : IsSlotText text) :
    (⟨last, ' ' :: (text ++ rest)⟩ : Cursor).ahead = text.head? := by
  rw [ahead, skip_of_space last isText]
  exact List.head?_append_of_ne_nil _ isText.1

theorem IsSlotText.head?_ne_colon {text : List Char} (isText : IsSlotText text) :
    text.head? ≠ some ':' := by
  intro colon
  exact absurd (isText.2 ':' (List.mem_of_mem_head? colon)) (by decide)

/-- What stands behind a mnemonic begins with the first of the texts. -/
theorem ahead_of_texts {text : String} (texts : List String) (last : Option Char)
    (isText : IsSlotText text.toList) :
    (⟨last, ' ' :: ((", ".intercalate (text :: texts)).toList ++ rest)⟩ : Cursor).ahead =
      text.toList.head? := by
  rw [toList_slots, List.append_assoc]
  exact ahead_of_space last isText

theorem item_of_slots {opcode : Opcode} {operands : List Operand} {next final : Cursor}
    (mnemonic : keyword opcode.form.mnemonic cursor = some next)
    (read : slots opcode.form.slots next = some (operands.map .ok, final))
    (noColon : next.ahead ≠ some ':')
    (digit : opcode = .address .jump → next.ahead.any (isDigitOf 10) = true) :
    cursor.item Production.all = some (.ok (.instruction opcode operands), final) := by
  have listed := Production.of_listed opcode
  have upper : IsMnemonic opcode.form.mnemonic := by
    rw [← Production.mnemonic_of]
    exact Production.isMnemonic listed
  refine item_of_read listed (Production.of_read mnemonic read) (fun isJump => ?_)
    (label_eq_none_of_keyword upper mnemonic noColon)
  have jump := Production.of_eq_jump isJump
  subst jump
  exact Production.offsetJump_read_eq_none mnemonic (digit rfl)

theorem item_of_texts {opcode : Opcode} {operands : List Operand} {text : String}
    {texts : List String} (taken : TakesAll opcode.form.slots operands (text :: texts))
    (here : cursor.skip = ⟨last, opcode.form.mnemonic.toList ++
      ' ' :: ((", ".intercalate (text :: texts)).toList ++ rest)⟩)
    (apart : last.any clingsToKeyword = false) (follows : Follows rest)
    (digit : opcode = .address .jump → text.toList.head?.any (isDigitOf 10) = true) :
    ∃ final, cursor.item Production.all =
      some (.ok (.instruction opcode operands), ⟨final, rest⟩) := by
  have mnemonic := keyword_of_text (mnemonic_plain opcode) here apart rfl
  obtain ⟨final, read⟩ := slots_of_text _ taken follows.1
  have isText := taken.areTexts text (List.mem_cons_self ..)
  refine ⟨final, item_of_slots mnemonic read ?_ fun isJump => ?_⟩
  · rw [ahead_of_texts texts _ isText]
    exact isText.head?_ne_colon
  · rw [ahead_of_texts texts _ isText]
    exact digit isJump

theorem FillsAll.nothing {shapes : List Slot} {values : List Int}
    (filled : FillsAll shapes values []) : shapes = [] ∧ values = [] := by
  cases filled
  exact ⟨rfl, rfl⟩

theorem FillsAll.digit_of_addr {shapes : List Slot} {values : List Int} {text : String}
    {texts : List String} (filled : FillsAll (.addr :: shapes) values (text :: texts)) :
    text.toList.head?.any (isDigitOf 10) = true := by
  cases filled with
  | cons first _ =>
      cases first
      rw [Field.text, marked_text]
      rfl

theorem item_of_text {opcode : Opcode} {operands : List Int} (admitted : opcode.Admits operands)
    (here : cursor.skip = ⟨last, (opcode.text operands).toList ++ rest⟩)
    (apart : last.any clingsToKeyword = false) (follows : Follows rest) :
    ∃ final, cursor.item Production.all =
      some (.ok (.instruction opcode (operands.map .number)), ⟨final, rest⟩) := by
  have filled := fillsAll_form admitted
  cases printed : slotTexts opcode.form.slots operands with
  | nil =>
      rw [printed] at filled
      obtain ⟨noSlots, rfl⟩ := filled.nothing
      rw [text_of_nil printed] at here
      have mnemonic := keyword_of_text (mnemonic_plain opcode) here apart
        (follows.1.any_eq_false (by decide))
      refine ⟨_, item_of_slots mnemonic (by rw [noSlots]; rfl) (follows.ahead_ne (by decide)) ?_⟩
      intro isJump
      subst isJump
      cases noSlots
  | cons text texts =>
      rw [printed] at filled
      rw [text_of_cons printed, List.append_assoc] at here
      refine item_of_texts filled.takesAll here apart follows fun isJump => ?_
      subst isJump
      exact filled.digit_of_addr

/-! Data. -/

theorem many_of_texts {α : Type} {entry : Cursor → Option (α × Cursor)} (shortens : Shortens entry)
    {values : List α} {texts : List String} (last : Option Char)
    (taken : List.Forall₂ (fun text value => Takes entry text.toList value) texts values)
    (areTexts : ∀ text ∈ texts, IsSlotText text.toList) (follows : Follows rest) :
    ∃ final, (⟨last, furtherTexts texts ++ rest⟩ : Cursor).many (afterComma entry)
      (afterComma_shortens shortens) = (values, ⟨final, rest⟩) := by
  induction taken generalizing last with
  | nil =>
      have none : afterComma entry ⟨last, rest⟩ = none :=
        afterComma_eq_none (follows.ahead_ne (by decide))
      exact ⟨last, many_of_none _ none⟩
  | @cons text value texts values first _ ih =>
      obtain ⟨isText, areTexts⟩ := List.forall_mem_cons.mp areTexts
      obtain ⟨afterEntry, read⟩ := first _ _ (furtherTexts texts ++ rest)
        (skip_of_space (some ',') isText) (by decide) (stops_furtherTexts texts follows.1)
      obtain ⟨final, others⟩ := ih afterEntry areTexts
      have further := afterComma_eq_some_iff.mpr ⟨_, comma_of_text last text texts rest, read⟩
      exact ⟨final, by rw [many_of_some _ further, others]⟩

theorem listOf_of_texts {α : Type} {entry : Cursor → Option (α × Cursor)}
    (shortens : Shortens entry) {values : List α} {text : String} {texts : List String}
    (last : Option Char)
    (taken : List.Forall₂ (fun text value => Takes entry text.toList value) (text :: texts) values)
    (areTexts : ∀ entry ∈ text :: texts, IsSlotText entry.toList) (follows : Follows rest) :
    ∃ final, listOf entry shortens
      ⟨last, ' ' :: ((", ".intercalate (text :: texts)).toList ++ rest)⟩ =
        some (values, ⟨final, rest⟩) := by
  obtain ⟨isText, areTexts⟩ := List.forall_mem_cons.mp areTexts
  cases taken with
  | cons first further =>
      rw [toList_slots, List.append_assoc]
      obtain ⟨afterFirst, read⟩ := first _ _ (furtherTexts texts ++ rest)
        (skip_of_space last isText) (by decide) (stops_furtherTexts texts follows.1)
      obtain ⟨final, others⟩ := many_of_texts shortens afterFirst further areTexts follows
      exact ⟨final, listOf_eq_some_iff.mpr ⟨_, _, _, read, others, rfl⟩⟩

/-- A command for data reads a list and has nothing in common with the jumps. -/
theorem item_of_data {α : Type} {entry : Cursor → Option (α × Cursor)} {shortens : Shortens entry}
    {production : Production} {values : List α} {reading : Reading} {text : String}
    {texts : List String} (listed : production ∈ Production.all)
    (notJump : production ≠ Production.jump)
    (plain : production.mnemonic.toList.map capital = production.mnemonic.toList)
    (reads : ∀ place afterMnemonic final, keyword production.mnemonic place = some afterMnemonic →
      listOf entry shortens afterMnemonic = some (values, final) →
        production.read place = some (reading, final))
    (taken : List.Forall₂ (fun text value => Takes entry text.toList value) (text :: texts) values)
    (areTexts : ∀ entry ∈ text :: texts, IsSlotText entry.toList)
    (here : cursor.skip = ⟨last, production.mnemonic.toList ++
      ' ' :: ((", ".intercalate (text :: texts)).toList ++ rest)⟩)
    (apart : last.any clingsToKeyword = false) (follows : Follows rest) :
    ∃ final, cursor.item Production.all = some (reading, ⟨final, rest⟩) := by
  have mnemonic := keyword_of_text plain here apart rfl
  obtain ⟨final, found⟩ := listOf_of_texts shortens _ taken areTexts follows
  refine ⟨final, item_of_read listed (reads _ _ _ mnemonic found) (fun isJump => ?_)
    (label_eq_none_of_keyword (Production.isMnemonic listed) mnemonic ?_)⟩
  · exact absurd isJump notJump
  · have isText := areTexts text (List.mem_cons_self ..)
    rw [ahead_of_texts texts _ isText]
    exact isText.head?_ne_colon

theorem item_of_bytes {values : List Nat} {text : String} {texts : List String}
    (taken : List.Forall₂ (fun text value => Takes number text.toList (.ok value)) (text :: texts)
      values)
    (areTexts : ∀ entry ∈ text :: texts, IsSlotText entry.toList)
    (here : cursor.skip =
      ⟨last, "DB".toList ++ ' ' :: ((", ".intercalate (text :: texts)).toList ++ rest)⟩)
    (apart : last.any clingsToKeyword = false) (follows : Follows rest) :
    ∃ final, cursor.item Production.all =
      some (.ok (.bytes (values.map Int.ofNat)), ⟨final, rest⟩) :=
  item_of_data (show Production.bytes ∈ Production.all by decide) (by decide) (by decide)
    (fun _ _ _ mnemonic found => Production.read_bytes_iff.mpr
      ⟨_, values.map .ok, mnemonic, found, by rw [gather_map_ok]; rfl⟩)
    (List.forall₂_map_right_iff.mpr taken) areTexts here apart follows

theorem item_of_words {values : List Operand} {text : String} {texts : List String}
    (taken : List.Forall₂ (fun text value => Takes address text.toList (.ok value)) (text :: texts)
      values)
    (areTexts : ∀ entry ∈ text :: texts, IsSlotText entry.toList)
    (here : cursor.skip =
      ⟨last, "DW".toList ++ ' ' :: ((", ".intercalate (text :: texts)).toList ++ rest)⟩)
    (apart : last.any clingsToKeyword = false) (follows : Follows rest) :
    ∃ final, cursor.item Production.all = some (.ok (.words values), ⟨final, rest⟩) :=
  item_of_data (show Production.words ∈ Production.all by decide) (by decide) (by decide)
    (fun _ _ _ mnemonic found => Production.read_words_iff.mpr
      ⟨_, values.map .ok, mnemonic, found, by rw [gather_map_ok]; rfl⟩)
    (List.forall₂_map_right_iff.mpr taken) areTexts here apart follows

theorem item_of_word {value : Nat} {text : List Char} (spelled : Numeral.IsNumeral 16 value text)
    (here : cursor.skip = ⟨last, "DW 0x".toList ++ text ++ rest⟩)
    (apart : last.any clingsToKeyword = false) (follows : Follows rest) :
    ∃ final, cursor.item Production.all = some (.ok (.words [.number value]), ⟨final, rest⟩) := by
  have toList : (String.ofList ('0' :: 'x' :: text)).toList = '0' :: 'x' :: text :=
    String.toList_ofList
  have isText : IsSlotText ('0' :: 'x' :: text) :=
    ((IsSlotText.of_numeral spelled).cons (by decide)).cons (by decide)
  have areTexts : ∀ entry ∈ [String.ofList ('0' :: 'x' :: text)], IsSlotText entry.toList := by
    rwa [List.forall_mem_singleton, toList]
  have taken : List.Forall₂ (fun text value => Takes address text.toList (.ok value))
      [String.ofList ('0' :: 'x' :: text)] [.number value] := by
    refine .cons ?_ .nil
    rw [toList]
    exact address_takes (number_takes_marked (by decide) spelled)
  refine item_of_words taken areTexts ?_ apart follows
  rw [toList_slots, toList]
  simpa [furtherTexts] using here

end Cursor

end Chip8.Assembly
