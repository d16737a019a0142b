import Chip8.Proofs.Assembly.Arity
import Chip8.Proofs.Assembly.Image

namespace Chip8.Assembly

/-! Which items make a program, and which error is reported for those that do not. The first pass
    judges an item by those before it, the second by the labels of the whole text. -/

/-- A label that no item defines. -/
inductive Operand.Unknown (items : List Item) : Operand → AsmError → Prop
  | label {name : String} (undefined : .label name ∉ items) :
      Unknown items (.label name) (.unknownLabel name)

/-- What keeps a word of data from being written. -/
inductive Operand.WordFault (items : List Item) : Operand → AsmError → Prop
  | unknown {operand : Operand} {reason : AsmError} (undefined : operand.Unknown items reason) :
      WordFault items operand reason
  | range {operand : Operand} {value : Int} (denoted : operand.Denotes items value)
      (outside : ¬ (0 ≤ value ∧ value ≤ 0xFFFF)) : WordFault items operand (.wordRange value)

/-- A value that is no byte. -/
inductive ByteFault : Int → AsmError → Prop
  | range {value : Int} (outside : ¬ (0 ≤ value ∧ value ≤ 0xFF)) :
      ByteFault value (.byteRange value)

/-- A value that its field does not admit. -/
inductive FieldFault (opcode : Opcode) : Field × Int → AsmError → Prop
  | range {field : Field} {value : Int} (outside : ¬ field.Admits value) :
      FieldFault opcode (field, value) (.operandRange opcode field value)

namespace Item

/-- What keeps an item from being laid out behind these others. -/
inductive LayoutFault (before : List Item) : Item → AsmError → Prop
  | label {name : String} (defined : .label name ∈ before) :
      LayoutFault before (.label name) (.duplicateLabel name)
  | bytes {values : List Int} {reason : AsmError}
      (first : FirstFault (fun _ => ByteFault) values reason) :
      LayoutFault before (.bytes values) reason

/-- What keeps an item from being written. The operands of an instruction are looked up before any
    of them is compared with its field, and the words of a list are dealt with one by one. -/
inductive EmissionFault (items : List Item) : Item → AsmError → Prop
  | unknown {opcode : Opcode} {operands : List Operand} {reason : AsmError}
      (first : FirstFault (fun _ => Operand.Unknown items) operands reason) :
      EmissionFault items (.instruction opcode operands) reason
  | range {opcode : Opcode} {operands : List Operand} {values : List Int} {reason : AsmError}
      (denoted : List.Forall₂ (Operand.Denotes items) operands values)
      (first : FirstFault (fun _ => FieldFault opcode) (opcode.fields.zip values) reason) :
      EmissionFault items (.instruction opcode operands) reason
  | words {operands : List Operand} {reason : AsmError}
      (first : FirstFault (fun _ => Operand.WordFault items) operands reason) :
      EmissionFault items (.words operands) reason

end Item

/-- The operands of an item, which the second pass looks up. -/
def Item.uses : Item → List Operand
  | label _ => []
  | instruction _ operands => operands
  | bytes _ => []
  | words operands => operands

/-- How each report is worded, apart from that on the shape of the text. -/
inductive AsmError.Worded : AsmError → String → Prop
  | malformed (line column : Nat) (text : String) : Worded (.malformed line column text)
      ("Syntax error at line " ++ Numeral.decimal line ++ ", column " ++ Numeral.decimal column ++
        ": " ++ text)
  | duplicateLabel (name : String) : Worded (.duplicateLabel name) ("Duplicate label " ++ name)
  | byteRange (value : Int) :
      Worded (.byteRange value) ("Byte " ++ Numeral.decimal value ++ " out of range")
  | unknownLabel (name : String) : Worded (.unknownLabel name) ("Unknown label " ++ name)
  | operandRange (opcode : Opcode) (field : Field) (value : Int) :
      Worded (.operandRange opcode field value) (opcode.name ++ " operand " ++ field.name ++ "=" ++
        Numeral.markedHex value ++ " out of range")
  | wordRange (value : Int) :
      Worded (.wordRange value) ("Word " ++ Numeral.decimal value ++ " out of range")

/-- The conditions on the items of a program. -/
structure WellFormed (items : List Item) : Prop where
  labels : ∀ name, items.count (.label name) ≤ 1
  bytes : ∀ values, .bytes values ∈ items → ∀ value ∈ values, 0 ≤ value ∧ value ≤ 0xFF
  defined : ∀ item ∈ items, ∀ name, .label name ∈ item.uses → .label name ∈ items
  operands : ∀ opcode operands values, .instruction opcode operands ∈ items →
    List.Forall₂ (Operand.Denotes items) operands values →
      ∀ entry ∈ opcode.fields.zip values, entry.1.Admits entry.2
  words : ∀ operands operand value, .words operands ∈ items → operand ∈ operands →
    operand.Denotes items value → 0 ≤ value ∧ value ≤ 0xFFFF

variable {layout : Layout} {items before : List Item} {reason : AsmError} {failure : Failure}

namespace AsmError

theorem worded_iff (reason : AsmError) (text : String) :
    (Failure.report reason).message = text ↔ reason.Worded text := by
  constructor
  · intro same
    subst same
    cases reason <;> constructor
  · intro worded
    cases worded <;> rfl

theorem raised_eq_iff :
    failure = reason.raised ↔ reason.Writable ∧ failure = .report reason ∨
      ¬ reason.Writable ∧ failure = .digitLimit none := by
  rw [raised]
  split
  · next writable => simp [writable]
  · next tooLong => simp [tooLong]

end AsmError

/-! The first pass. -/

theorem byte_eq_error_iff {value : Int} :
    Layout.byte value = .error failure ↔
      ∃ reason, ByteFault value reason ∧ failure = reason.raised := by
  rw [Layout.byte]
  constructor
  · intro failed
    split at failed
    · cases failed
    · next outside =>
        cases failed
        exact ⟨_, .range outside, rfl⟩
  · intro fault
    obtain ⟨_, ⟨outside⟩, rfl⟩ := fault
    rw [if_neg outside]

theorem definedAt_of_mem {name : String} (member : .label name ∈ items) :
    ∃ address, DefinedAt items name address := by
  obtain ⟨before, after, split⟩ := List.append_of_mem member
  exact ⟨_, before, after, split, rfl⟩

theorem DefinedAt.mem {name : String} {address : Nat} (defined : DefinedAt items name address) :
    .label name ∈ items := by
  obtain ⟨before, after, rfl, _⟩ := defined
  simp

namespace Layout

theorem LaysOut.lookup_eq_none_iff {name : String} (laid : layout.LaysOut items) :
    layout.labels.lookup name = none ↔ .label name ∉ items := by
  rw [Option.eq_none_iff_forall_ne_some]
  constructor
  · intro absent member
    obtain ⟨address, defined⟩ := definedAt_of_mem member
    exact absent address ((laid.labels name address).mpr defined)
  · intro undefined address found
    exact undefined ((laid.labels name address).mp found).mem

theorem LaysOut.add_eq_error_iff {item : Item} (laid : layout.LaysOut before) :
    layout.add item = .error failure ↔
      ∃ reason, item.LayoutFault before reason ∧ failure = reason.raised := by
  cases item with
  | label name =>
      simp only [Layout.add]
      have fresh : layout.labels.lookup name = none ↔ .label name ∉ before :=
        laid.lookup_eq_none_iff
      constructor
      · intro failed
        split at failed
        · next found =>
            cases failed
            rw [Option.isSome_iff_ne_none, ne_eq, fresh, not_not] at found
            exact ⟨_, .label found, rfl⟩
        · cases failed
      · intro fault
        obtain ⟨_, ⟨defined⟩ | _, rfl⟩ := fault
        rw [if_pos]
        · rfl
        · rw [Option.isSome_iff_ne_none, ne_eq, fresh, not_not]
          exact defined
  | instruction opcode operands =>
      constructor
      · intro impossible
        cases impossible
      · rintro ⟨_, impossible, _⟩
        cases impossible
  | bytes values =>
      simp only [Layout.add]
      rw [bind_ok_eq_error_iff, mapM_eq_error_iff]
      simp only [byte_eq_error_iff, firstFault_image]
      refine exists_congr fun reason => and_congr_left fun _ => ⟨.bytes, fun fault => ?_⟩
      cases fault with
      | bytes first => exact first
  | words operands =>
      constructor
      · intro impossible
        cases impossible
      · rintro ⟨_, impossible, _⟩
        cases impossible

theorem LaysOut.addAll_eq_error_iff (laid : layout.LaysOut before) :
    (layout.addAll items).1 = .error failure ↔
      ∃ reason, FirstFault (fun front => Item.LayoutFault (before ++ front)) items reason ∧
        failure = reason.raised := by
  rw [← firstFault_image]
  induction items generalizing layout before with
  | nil => simp [Layout.addAll, firstFault_nil]
  | cons item rest ih =>
      have fault (cause : Failure) : layout.add item = .error cause ↔
          ∃ reason, item.LayoutFault before reason ∧ cause = reason.raised := laid.add_eq_error_iff
      rw [firstFault_cons, List.append_nil, Layout.addAll]
      simp only [← fault]
      cases added : layout.add item with
      | error cause => simp
      | ok next => simp [ih (laid.add added)]

/-! The second pass. -/

theorem LaysOut.resolve_eq_ok_iff {operand : Operand} {value : Int} (laid : layout.LaysOut items) :
    layout.resolve operand = .ok value ↔ operand.Denotes items value := by
  refine ⟨laid.denotes_of_resolve, fun denoted => ?_⟩
  cases operand with
  | number written => exact congrArg Except.ok denoted.symm
  | label name =>
      obtain ⟨address, rfl, only⟩ := denoted
      have found := (laid.labels name address).mpr ((only address).mpr rfl)
      simp only [resolve, found]

theorem LaysOut.resolve_eq_error_iff {operand : Operand} (laid : layout.LaysOut items) :
    layout.resolve operand = .error failure ↔
      ∃ reason, operand.Unknown items reason ∧ failure = reason.raised := by
  cases operand with
  | number written =>
      constructor
      · intro impossible
        cases impossible
      · rintro ⟨_, impossible, _⟩
        cases impossible
  | label name =>
      have absent : layout.labels.lookup name = none ↔ .label name ∉ items :=
        laid.lookup_eq_none_iff
      simp only [resolve]
      constructor
      · intro failed
        split at failed
        · cases failed
        · next missing =>
            cases failed
            exact ⟨_, .label (absent.mp missing), rfl⟩
      · intro fault
        obtain ⟨_, ⟨undefined⟩, rfl⟩ := fault
        rw [absent.mpr undefined]
        rfl

theorem LaysOut.word_eq_error_iff {operand : Operand} (laid : layout.LaysOut items) :
    layout.word operand = .error failure ↔
      ∃ reason, operand.WordFault items reason ∧ failure = reason.raised := by
  rw [word, bind_eq_error_iff]
  simp only [laid.resolve_eq_error_iff, laid.resolve_eq_ok_iff]
  constructor
  · intro failed
    rcases failed with ⟨reason, undefined, rfl⟩ | ⟨value, denoted, failed⟩
    · exact ⟨reason, .unknown undefined, rfl⟩
    · split at failed
      · cases failed
      · next outside =>
          cases failed
          exact ⟨_, .range denoted outside, rfl⟩
  · intro fault
    obtain ⟨_, fault, rfl⟩ := fault
    cases fault with
    | unknown undefined => exact Or.inl ⟨_, undefined, rfl⟩
    | range denoted outside => exact Or.inr ⟨_, denoted, if_neg outside⟩

theorem checkOperands_eq_error_iff {opcode : Opcode} {values : List Int}
    (count : values.length = opcode.fields.length) :
    checkOperands opcode values = .error failure ↔
      ∃ reason, FirstFault (fun _ => FieldFault opcode) (opcode.fields.zip values) reason ∧
        failure = reason.raised := by
  have described (entry : Field × Int) (cause : AsmError) : FieldFault opcode entry cause ↔
      decide (¬ entry.1.Admits entry.2) = true ∧ cause = .operandRange opcode entry.1 entry.2 := by
    rw [decide_eq_true_iff]
    constructor
    · intro fault
      obtain ⟨outside⟩ := fault
      exact ⟨outside, rfl⟩
    · intro fault
      obtain ⟨outside, rfl⟩ := fault
      exact .range outside
  simp only [FirstFault.congr fun _ entry _ _ cause => described entry cause,
    ← find?_map_eq_some_iff, checkOperands]
  split
  · next field value found =>
      rw [found]
      constructor
      · intro failed
        cases failed
        exact ⟨_, rfl, rfl⟩
      · intro fault
        obtain ⟨_, same, rfl⟩ := fault
        cases same
        rfl
  · next absent =>
      rw [absent, if_pos count]
      simp

theorem LaysOut.operandValues_eq_error_iff {opcode : Opcode} {operands : List Operand}
    (laid : layout.LaysOut items) (count : operands.length = opcode.fields.length) :
    layout.operandValues opcode operands = .error failure ↔
      ∃ reason, Item.EmissionFault items (.instruction opcode operands) reason ∧
        failure = reason.raised := by
  have checked {values : List Int}
      (denoted : List.Forall₂ (Operand.Denotes items) operands values) :
      (checkOperands opcode values >>= fun _ => .ok values) = .error failure ↔
        ∃ reason, FirstFault (fun _ => FieldFault opcode) (opcode.fields.zip values) reason ∧
          failure = reason.raised :=
    bind_ok_eq_error_iff.trans (checkOperands_eq_error_iff (denoted.length_eq.symm.trans count))
  rw [operandValues, bind_eq_error_iff, mapM_eq_error_iff]
  simp only [laid.resolve_eq_error_iff, firstFault_image, mapM_eq_ok_iff, laid.resolve_eq_ok_iff]
  constructor
  · intro failed
    rcases failed with ⟨reason, undefined, rfl⟩ | ⟨values, denoted, failed⟩
    · exact ⟨reason, .unknown undefined, rfl⟩
    · obtain ⟨reason, first, rfl⟩ := (checked denoted).mp failed
      exact ⟨reason, .range denoted first, rfl⟩
  · intro fault
    obtain ⟨reason, fault, rfl⟩ := fault
    cases fault with
    | unknown first => exact Or.inl ⟨reason, first, rfl⟩
    | range denoted first => exact Or.inr ⟨_, denoted, (checked denoted).mpr ⟨reason, first, rfl⟩⟩

theorem LaysOut.commandBytes_eq_error_iff {item : Item} (laid : layout.LaysOut items)
    (shaped : item.Shaped) :
    (∃ command, item.command? = some command ∧ layout.commandBytes command = .error failure) ↔
      ∃ reason, item.EmissionFault items reason ∧ failure = reason.raised := by
  cases item with
  | label name =>
      constructor
      · rintro ⟨command, issued, _⟩
        cases issued
      · rintro ⟨_, impossible, _⟩
        cases impossible
  | instruction opcode operands =>
      simp only [Item.command?, Option.some.injEq, exists_eq_left', commandBytes]
      exact bind_ok_eq_error_iff.trans (laid.operandValues_eq_error_iff shaped)
  | bytes values =>
      simp only [Item.command?, Option.some.injEq, exists_eq_left', commandBytes]
      constructor
      · intro impossible
        cases impossible
      · rintro ⟨_, impossible, _⟩
        cases impossible
  | words operands =>
      simp only [Item.command?, Option.some.injEq, exists_eq_left', commandBytes]
      rw [bind_ok_eq_error_iff, mapM_eq_error_iff]
      simp only [laid.word_eq_error_iff, firstFault_image]
      refine exists_congr fun reason => and_congr_left fun _ => ⟨.words, fun fault => ?_⟩
      cases fault with
      | words first => exact first

theorem LaysOut.emit_eq_error_iff (laid : layout.LaysOut items)
    (shaped : ∀ item ∈ items, item.Shaped) :
    layout.emit = .error failure ↔
      ∃ reason, FirstFault (fun _ => Item.EmissionFault items) items reason ∧
        failure = reason.raised := by
  rw [emit, bind_ok_eq_error_iff, laid.commands, mapM_eq_error_iff, firstFault_filterMap,
    ← firstFault_image]
  refine FirstFault.congr fun _ item after split cause => ?_
  exact laid.commandBytes_eq_error_iff (shaped item (by simp [split]))

end Layout

/-- The error to be reported for items: that of the first pass if it has one. -/
def Reported (items : List Item) (reason : AsmError) : Prop :=
  FirstFault Item.LayoutFault items reason ∨
    Faultless Item.LayoutFault items ∧
      FirstFault (fun _ => Item.EmissionFault items) items reason

theorem assembleItems_eq_error_iff (shaped : ∀ item ∈ items, item.Shaped) :
    assembleItems items = .error failure ↔
      ∃ reason, Reported items reason ∧ failure = reason.raised := by
  have first (cause : Failure) : _ ↔ ∃ reason, FirstFault Item.LayoutFault items reason ∧
      cause = reason.raised := Layout.laysOut_nil.addAll_eq_error_iff
  simp only [assembleItems, Reported]
  cases added : ({} : Layout).addAll items with
  | mk outcome layout =>
      rw [added] at first
      cases outcome with
      | error cause =>
          obtain ⟨reason, fault, rfl⟩ := (first cause).mp rfl
          have fails : ¬ Faultless Item.LayoutFault items :=
            fun sound => faultless_iff.mp sound reason fault
          simp [fails, ← first]
      | ok done =>
          have laid : layout.LaysOut items := by
            simpa using Layout.laysOut_nil.addAll added
          have none (reason : AsmError) : ¬ FirstFault Item.LayoutFault items reason := by
            intro fault
            cases (first _).mpr ⟨reason, fault, rfl⟩
          simp [none, faultless_iff, laid.emit_eq_error_iff shaped]

/-! Items without a fault. -/

theorem byteFault_iff {value : Int} :
    (∀ reason, ¬ ByteFault value reason) ↔ 0 ≤ value ∧ value ≤ 0xFF := by
  constructor
  · intro sound
    by_contra outside
    exact sound _ (.range outside)
  · intro within reason fault
    obtain ⟨outside⟩ := fault
    exact outside within

theorem two_le_count_iff {item : Item} :
    2 ≤ items.count item ↔ ∃ before after, items = before ++ item :: after ∧ item ∈ before := by
  constructor
  · intro twice
    obtain ⟨before, after, rfl, fresh⟩ := List.eq_append_cons_of_mem
      (List.count_pos_iff.mp (by omega : 0 < items.count item))
    have again : item ∈ after := by
      rw [List.count_append, List.count_cons_self, List.count_eq_zero.mpr fresh] at twice
      exact List.count_pos_iff.mp (by omega)
    obtain ⟨middle, rest, rfl⟩ := List.append_of_mem again
    exact ⟨before ++ item :: middle, rest, by simp, by simp⟩
  · intro found
    obtain ⟨before, after, rfl, earlier⟩ := found
    have positive := List.count_pos_iff.mpr earlier
    rw [List.count_append, List.count_cons_self]
    omega

theorem faultless_layout_iff :
    Faultless Item.LayoutFault items ↔
      (∀ name, items.count (.label name) ≤ 1) ∧
        ∀ values, .bytes values ∈ items → ∀ value ∈ values, 0 ≤ value ∧ value ≤ 0xFF := by
  constructor
  · intro sound
    refine ⟨fun name => ?_, fun values member value inside => ?_⟩
    · by_contra twice
      obtain ⟨before, after, split, defined⟩ := two_le_count_iff.mp (Nat.not_le.mp twice)
      exact sound before _ after split _ (.label defined)
    · obtain ⟨before, after, split⟩ := List.append_of_mem member
      have free := not_firstFault_iff.mp
        fun reason first => sound before _ after split reason (.bytes first)
      exact byteFault_iff.mp (free value inside)
  · intro sound before item after split reason fault
    obtain ⟨labels, bytes⟩ := sound
    cases fault with
    | @label name defined =>
        have twice := two_le_count_iff.mpr ⟨before, after, split, defined⟩
        have once := labels name
        omega
    | @bytes values _ first =>
        have within := bytes values (by simp [split])
        exact not_firstFault_iff.mpr (fun value inside => byteFault_iff.mpr (within value inside))
          _ first

theorem faultless_emission_iff :
    Faultless (fun _ => Item.EmissionFault items) items ↔
      (∀ item ∈ items, ∀ name, .label name ∈ item.uses → .label name ∈ items) ∧
        (∀ opcode operands values, .instruction opcode operands ∈ items →
          List.Forall₂ (Operand.Denotes items) operands values →
            ∀ entry ∈ opcode.fields.zip values, entry.1.Admits entry.2) ∧
          ∀ operands operand value, .words operands ∈ items → operand ∈ operands →
            operand.Denotes items value → 0 ≤ value ∧ value ≤ 0xFFFF := by
  rw [faultless_iff, not_firstFault_iff]
  constructor
  · intro sound
    refine ⟨?_, ?_, ?_⟩
    · intro item member name used
      by_contra undefined
      cases item with
      | label _ => cases used
      | instruction opcode operands =>
          exact not_firstFault_iff.mp (fun reason first => sound _ member reason (.unknown first))
            _ used _ (.label undefined)
      | bytes _ => cases used
      | words operands =>
          exact not_firstFault_iff.mp (fun reason first => sound _ member reason (.words first))
            _ used _ (.unknown (.label undefined))
    · intro opcode operands values member denoted entry inside
      by_contra outside
      exact not_firstFault_iff.mp (fun reason first => sound _ member reason (.range denoted first))
        entry inside _ (.range outside)
    · intro operands operand value member inside denoted
      by_contra outside
      exact not_firstFault_iff.mp (fun reason first => sound _ member reason (.words first))
        operand inside _ (.range denoted outside)
  · intro sound item member reason fault
    obtain ⟨defined, operands, words⟩ := sound
    cases fault with
    | unknown first =>
        refine not_firstFault_iff.mpr (fun operand inside cause unknown => ?_) _ first
        obtain ⟨undefined⟩ := unknown
        exact undefined (defined _ member _ inside)
    | range denoted first =>
        refine not_firstFault_iff.mpr (fun entry inside cause fault => ?_) _ first
        obtain ⟨outside⟩ := fault
        exact outside (operands _ _ _ member denoted _ inside)
    | words first =>
        refine not_firstFault_iff.mpr (fun operand inside cause fault => ?_) _ first
        cases fault with
        | unknown unknown =>
            obtain ⟨undefined⟩ := unknown
            exact undefined (defined _ member _ inside)
        | range denoted outside => exact outside (words _ _ _ member inside denoted)

theorem wellFormed_iff :
    WellFormed items ↔
      Faultless Item.LayoutFault items ∧ Faultless (fun _ => Item.EmissionFault items) items := by
  rw [faultless_layout_iff, faultless_emission_iff]
  constructor
  · intro sound
    exact ⟨⟨sound.labels, sound.bytes⟩, sound.defined, sound.operands, sound.words⟩
  · intro sound
    obtain ⟨⟨labels, bytes⟩, defined, operands, words⟩ := sound
    exact ⟨labels, bytes, defined, operands, words⟩

theorem assembleItems_isOk_iff (shaped : ∀ item ∈ items, item.Shaped) :
    (∃ program, assembleItems items = .ok program) ↔ WellFormed items := by
  rw [exists_eq_ok_iff, wellFormed_iff]
  simp only [ne_eq, assembleItems_eq_error_iff shaped, forall_not_told_iff, Reported, not_or,
    not_and, forall_and, ← faultless_iff]
  refine and_congr_right fun sound => ⟨fun further => ?_, fun further reason _ => ?_⟩
  · exact faultless_iff.mpr fun reason => further reason sound
  · exact faultless_iff.mp further reason

theorem assemble_of_parse {source : String} (parsed : parse source = .ok items) :
    assemble source = assembleItems items := by
  rw [assemble, parsed]
  rfl

end Chip8.Assembly
