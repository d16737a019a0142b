import Chip8.Instruction.Basic
import Mathlib

namespace Chip8

/-! A word and its instruction determine each other. At most one operation matches a word, so the
    order of the tables is of no account, and an operation with operands that its fields admit is
    found again in its word. -/

/-- A field is added to a word when it is laid between bits that are set above and below it. -/
theorem Bits.union_eq_add (bit top word value : Nat)
    (below : word % 2 ^ top < 2 ^ bit) (within : 2 ^ bit * value + word % 2 ^ top < 2 ^ top) :
    Bits.union word (2 ^ bit * value : Nat) = (word + 2 ^ bit * value : Nat) := by
  have lowFits : word % 2 ^ top < 2 ^ top := Nat.lt_of_le_of_lt (Nat.le_add_left _ _) within
  have parts := Nat.div_add_mod word (2 ^ top)
  rw [Bits.union_natCast]
  congr 1
  calc word ||| 2 ^ bit * value
      = 2 ^ top * (word / 2 ^ top) ||| (2 ^ bit * value ||| word % 2 ^ top) := by
        rw [Nat.or_comm (2 ^ bit * value), ← Nat.or_assoc,
          ← Nat.two_pow_add_eq_or_of_lt lowFits, parts]
    _ = 2 ^ top * (word / 2 ^ top) + (2 ^ bit * value + word % 2 ^ top) := by
        rw [← Nat.two_pow_add_eq_or_of_lt below, ← Nat.two_pow_add_eq_or_of_lt within]
    _ = word + 2 ^ bit * value := by omega

namespace Opcode

/-- Whether the operands are as many as the fields and each field admits its own. -/
def Admits (opcode : Opcode) (operands : List Int) : Prop :=
  List.Forall₂ Field.Admits opcode.fields operands

theorem code_lt (opcode : Opcode) : opcode.code < 0x10000 := by
  cases opcode with
  | draw => decide
  | _ op => cases op <;> decide

theorem code_injective : Function.Injective code := by
  intro left right same
  have fromTable : ∀ left ∈ all, ∀ right ∈ all, left.code = right.code → left = right := by decide
  exact fromTable left (mem_all left) right (mem_all right) same

/-- Every digit that a comparison leaves in place is the word's own. -/
theorem leadingDigit_of_matches {opcode : Opcode} {word : Int} (found : opcode.Matches word) :
    word / 0x1000 % 0x10 = (opcode.code / 0x1000 : Nat) := by
  have bounded := opcode.code_lt
  have nibble : ∀ op : PairOp, op.code % 0x1000 < 0x10 := by intro op; cases op <;> decide
  have byte : ∀ op : RegisterOp, op.code % 0x1000 < 0x100 := by intro op; cases op <;> decide
  cases opcode with
  | bare op | address op | immediate op | draw =>
      simp only [Matches, fixedPart, code] at found bounded ⊢
      omega
  | pair op =>
      have low := nibble op
      simp only [Matches, fixedPart, code] at found bounded ⊢
      omega
  | register op =>
      have low := byte op
      simp only [Matches, fixedPart, code] at found bounded ⊢
      omega

/-- What is compared of a word whose operation has this leading digit. -/
def comparedPart (digit : Nat) (word : Int) : Int :=
  match digit with
  | 0 => word
  | 5 | 8 | 9 => word / 0x1000 % 0x10 * 0x1000 + word % 0x10
  | 0xE | 0xF => word / 0x1000 % 0x10 * 0x1000 + word % 0x100
  | _ => word / 0x1000 % 0x10 * 0x1000

/-- The leading digit alone tells which digits of a word are compared. -/
theorem fixedPart_eq_comparedPart (opcode : Opcode) (word : Int) :
    opcode.fixedPart word = comparedPart (opcode.code / 0x1000) word := by
  cases opcode with
  | draw => rfl
  | _ op => cases op <;> rfl

theorem Matches.unique {left right : Opcode} {word : Int}
    (first : left.Matches word) (second : right.Matches word) : left = right := by
  have leading := (leadingDigit_of_matches first).symm.trans (leadingDigit_of_matches second)
  have compared : left.fixedPart word = right.fixedPart word := by
    rw [fixedPart_eq_comparedPart, fixedPart_eq_comparedPart, Int.ofNat_inj.mp leading]
  apply code_injective
  exact Int.ofNat_inj.mp (first.symm.trans (compared.trans second))

/-- Tables in any order and division find the one operation that matches, if they hold it. -/
theorem search_eq_some_iff {tables : List (List Opcode)} {word : Int} {opcode : Opcode} :
    search tables word = some opcode ↔ opcode.Matches word ∧ opcode ∈ tables.flatten := by
  constructor
  · intro found
    obtain ⟨table, member, inTable⟩ := List.exists_of_findSome?_eq_some found
    exact ⟨by simpa using List.find?_some inTable,
      List.mem_flatten.mpr ⟨table, member, List.mem_of_find?_eq_some inTable⟩⟩
  · intro found
    obtain ⟨matched, member⟩ := found
    cases found : search tables word with
    | none =>
        obtain ⟨table, tableMember, inTable⟩ := List.mem_flatten.mp member
        have absent := List.findSome?_eq_none_iff.mp found table tableMember
        exact absurd matched (by simpa using List.find?_eq_none.mp absent opcode inTable)
    | some other =>
        obtain ⟨table, _, inTable⟩ := List.exists_of_findSome?_eq_some found
        have otherMatches : other.Matches word := by simpa using List.find?_some inTable
        rw [otherMatches.unique matched]

theorem ofWord?_eq_some_iff {word : Int} {opcode : Opcode} :
    ofWord? word = some opcode ↔ opcode.Matches word := by
  rw [ofWord?, search_eq_some_iff]
  refine and_iff_left ?_
  have listed : opcode ∈ all := mem_all opcode
  simpa [all] using listed

/-! The word of an operation is the sum of its code and its operands in their places, since no two
    of them share a bit. Registers have to be in range for that; the other operands are cut. -/

theorem union_register {word : Nat} {field : Field} {x : Int} (bit : Nat)
    (placed : field.place x = x * 2 ^ bit) (admitted : 0 ≤ x ∧ x ≤ 0xF)
    (clear : word % 2 ^ (bit + 4) < 2 ^ bit) :
    Bits.union word (field.place x) = (word + 2 ^ bit * x.toNat : Nat) := by
  have natural : field.place x = (2 ^ bit * x.toNat : Nat) := by
    rw [placed, Int.natCast_mul, Int.toNat_of_nonneg admitted.1, Int.mul_comm, Int.natCast_pow]
    rfl
  have within : 2 ^ bit * x.toNat + word % 2 ^ (bit + 4) < 2 ^ (bit + 4) := by
    have digit : 2 ^ bit * x.toNat ≤ 2 ^ bit * 15 := Nat.mul_le_mul_left _ (by omega)
    have sixteen : 2 ^ (bit + 4) = 2 ^ bit * 16 := Nat.pow_add 2 bit 4
    omega
  rw [natural]
  exact Bits.union_eq_add bit (bit + 4) word x.toNat clear within

theorem union_low (top : Nat) {word : Nat} (value : Int) (aligned : word % 2 ^ top = 0)
    (cut : 0 ≤ value ∧ value < (2 ^ top : Nat)) :
    Bits.union word value = word + value := by
  obtain ⟨number, rfl⟩ := Int.eq_ofNat_of_zero_le cut.1
  have added := Bits.union_eq_add 0 top word number (by omega) (by omega)
  simpa using added

theorem encode_address (op : AddressOp) (addr : Int) :
    encode (address op) [addr] = op.code + addr % 0x1000 :=
  union_low 12 (addr % 0x1000) (by cases op <;> decide) (by omega)

theorem encode_immediate (op : ImmediateOp) {x : Int} (byte : Int) (register : 0 ≤ x ∧ x ≤ 0xF) :
    encode (immediate op) [x, byte] = op.code + x * 0x100 + byte % 0x100 := by
  have aligned : op.code % 2 ^ 12 = 0 := by cases op <;> decide
  change Bits.union (Bits.union op.code (Field.x.place x)) (byte % 0x100) = _
  rw [union_register 8 rfl register (by omega), union_low 8 _ (by omega) (by omega)]
  omega

theorem encode_pair (op : PairOp) {x y : Int} (first : 0 ≤ x ∧ x ≤ 0xF) (second : 0 ≤ y ∧ y ≤ 0xF) :
    encode (pair op) [x, y] = op.code + x * 0x100 + y * 0x10 := by
  have low : op.code % 2 ^ 12 < 2 ^ 4 := by cases op <;> decide
  change Bits.union (Bits.union op.code (Field.x.place x)) (Field.y.place y) = _
  rw [union_register 8 rfl first (by omega), union_register 4 rfl second (by omega)]
  omega

theorem encode_draw {x y : Int} (n : Int) (first : 0 ≤ x ∧ x ≤ 0xF) (second : 0 ≤ y ∧ y ≤ 0xF) :
    encode draw [x, y, n] = 0xD000 + x * 0x100 + y * 0x10 + n % 0x10 := by
  change Bits.union (Bits.union (Bits.union (0xD000 : Nat) (Field.x.place x)) (Field.y.place y))
    (n % 0x10) = _
  rw [union_register 8 rfl first (by omega), union_register 4 rfl second (by omega),
    union_low 4 _ (by omega) (by omega)]
  omega

theorem encode_register (op : RegisterOp) {x : Int} (register : 0 ≤ x ∧ x ≤ 0xF) :
    encode (.register op) [x] = op.code + x * 0x100 := by
  have low : op.code % 2 ^ 12 < 2 ^ 8 := by cases op <;> decide
  change Bits.union op.code (Field.x.place x) = _
  rw [union_register 8 rfl register low]
  omega

/-- The operands that an operation's fields hold in a word. -/
def read (opcode : Opcode) (word : Int) : List Int :=
  opcode.fields.map (·.read word)

theorem admits_read (opcode : Opcode) (word : Int) : opcode.Admits (opcode.read word) := by
  rw [Admits, read, List.forall₂_map_right_iff]
  exact List.forall₂_same.mpr fun field _ => field.admits_read word

/-- Words of sixteen bits that an operation matches are those of its admitted operands. -/
theorem encode_fits {opcode : Opcode} {operands : List Int} (admitted : opcode.Admits operands) :
    opcode.Matches (opcode.encode operands) ∧ opcode.read (opcode.encode operands) = operands ∧
      0 ≤ opcode.encode operands ∧ opcode.encode operands ≤ 0xFFFF := by
  have bounded := opcode.code_lt
  cases opcode with
  | bare op =>
      cases admitted
      simp only [code] at bounded
      refine ⟨rfl, rfl, ?_⟩
      change 0 ≤ (op.code : Int) ∧ (op.code : Int) ≤ 0xFFFF
      omega
  | address op =>
      rcases admitted with _ | ⟨addr, _ | _⟩
      have aligned : op.code % 0x1000 = 0 := by cases op <;> decide
      simp only [code, Field.Admits, Field.limit] at bounded addr
      rw [encode_address]
      simp only [Matches, fixedPart, code, read, fields, Field.read, List.map_cons, List.map_nil,
        List.cons.injEq, and_true]
      omega
  | immediate op =>
      rcases admitted with _ | ⟨x, _ | ⟨byte, _ | _⟩⟩
      have aligned : op.code % 0x1000 = 0 := by cases op <;> decide
      simp only [code, Field.Admits, Field.limit] at bounded x byte
      rw [encode_immediate op _ x]
      simp only [Matches, fixedPart, code, read, fields, Field.read, List.map_cons, List.map_nil,
        List.cons.injEq, and_true]
      omega
  | draw =>
      rcases admitted with _ | ⟨x, _ | ⟨y, _ | ⟨n, _ | _⟩⟩⟩
      simp only [Field.Admits, Field.limit] at x y n
      rw [encode_draw _ x y]
      simp only [Matches, fixedPart, code, read, fields, Field.read, List.map_cons, List.map_nil,
        List.cons.injEq, and_true]
      omega
  | pair op =>
      rcases admitted with _ | ⟨x, _ | ⟨y, _ | _⟩⟩
      have low : op.code % 0x1000 < 0x10 := by cases op <;> decide
      simp only [code, Field.Admits, Field.limit] at bounded x y
      rw [encode_pair op x y]
      simp only [Matches, fixedPart, code, read, fields, Field.read, List.map_cons, List.map_nil,
        List.cons.injEq, and_true]
      omega
  | register op =>
      rcases admitted with _ | ⟨x, _ | _⟩
      have low : op.code % 0x1000 < 0x100 := by cases op <;> decide
      simp only [code, Field.Admits, Field.limit] at bounded x
      rw [encode_register op x]
      simp only [Matches, fixedPart, code, read, fields, Field.read, List.map_cons, List.map_nil,
        List.cons.injEq, and_true]
      omega

/-- A word that an operation matches is lost only above its sixteenth bit. -/
theorem encode_read {opcode : Opcode} {word : Int} (found : opcode.Matches word) :
    opcode.encode (opcode.read word) = word % 0x10000 := by
  have bounded := opcode.code_lt
  cases opcode with
  | bare op =>
      simp only [Matches, fixedPart, code] at found bounded
      change (op.code : Int) = word % 0x10000
      omega
  | address op =>
      simp only [Matches, fixedPart, code] at found bounded
      change encode (address op) [word % 0x1000] = _
      rw [encode_address]
      omega
  | immediate op =>
      simp only [Matches, fixedPart, code] at found bounded
      change encode (immediate op) [word / 0x100 % 0x10, word % 0x100] = _
      rw [encode_immediate op _ (by omega)]
      omega
  | draw =>
      simp only [Matches, fixedPart, code] at found
      change encode draw [word / 0x100 % 0x10, word / 0x10 % 0x10, word % 0x10] = _
      rw [encode_draw _ (by omega) (by omega)]
      omega
  | pair op =>
      simp only [Matches, fixedPart, code] at found bounded
      change encode (pair op) [word / 0x100 % 0x10, word / 0x10 % 0x10] = _
      rw [encode_pair op (by omega) (by omega)]
      omega
  | register op =>
      simp only [Matches, fixedPart, code] at found bounded
      change encode (.register op) [word / 0x100 % 0x10] = _
      rw [encode_register op (by omega)]
      omega

/-! The typed operands of an instruction are what its fields read, since each type is as wide as
    its field. -/

theorem opcode?_instruction (opcode : Opcode) (word : Int) :
    (opcode.instruction word).opcode? = some opcode := by
  cases opcode <;> rfl

theorem operands_instruction (opcode : Opcode) (word : Int) :
    (opcode.instruction word).operands = opcode.read word := by
  have nibble : ∀ field : Field, field.limit = 0xF →
      ((Nibble.ofWord field word).val : Int) = field.read word := by
    intro field limit
    have range := field.admits_read word
    simp only [Field.Admits, limit] at range
    simp only [Nibble.ofWord, Nibble.ofNat, Fin.val_ofNat]
    omega
  have byte : ((UInt8.ofNat (word % 0x100).toNat).toNat : Int) = word % 0x100 := by
    rw [UInt8.toNat_ofNat']
    omega
  have addr : ((Address.ofNat (word % 0x1000).toNat).val : Int) = word % 0x1000 := by
    simp only [Address.ofNat, Fin.val_ofNat]
    omega
  cases opcode with
  | bare op => rfl
  | address op => exact congrArg (fun value => [value]) addr
  | immediate op =>
      exact congrArg₂ (fun x byte => [x, byte]) (nibble .x rfl) byte
  | draw =>
      change [((Nibble.ofWord .x word).val : Int), ((Nibble.ofWord .y word).val : Int),
        ((Nibble.ofWord .n word).val : Int)] = _
      rw [nibble .x rfl, nibble .y rfl, nibble .n rfl]
      rfl
  | pair op => exact congrArg₂ (fun x y => [x, y]) (nibble .x rfl) (nibble .y rfl)
  | register op => exact congrArg (fun value => [value]) (nibble .x rfl)

end Opcode

namespace Instruction

theorem decode_of_matches {opcode : Opcode} {word : Int} (found : opcode.Matches word) :
    decode word = opcode.instruction word := by
  simp only [decode, Opcode.ofWord?_eq_some_iff.mpr found]

theorem opcode?_decode_eq_some_iff {opcode : Opcode} {word : Int} :
    (decode word).opcode? = some opcode ↔ opcode.Matches word := by
  rw [← Opcode.ofWord?_eq_some_iff, decode]
  cases Opcode.ofWord? word with
  | none => simp [opcode?, elim]
  | some found => simp only [Opcode.opcode?_instruction]

theorem decode_of_opcode?_eq_none {word : Int} (unknown : (decode word).opcode? = none) :
    decode word = .invalid word := by
  rw [decode] at unknown ⊢
  cases found : Opcode.ofWord? word with
  | none => rfl
  | some opcode => simp [found, Opcode.opcode?_instruction] at unknown

theorem word_of_decode_invalid {word value : Int} (unknown : decode word = .invalid value) :
    value = word := by
  have same := decode_of_opcode?_eq_none (by rw [unknown]; rfl)
  exact Instruction.invalid.inj (unknown.symm.trans same)

theorem text_of_opcode? {instruction : Instruction} {opcode : Opcode}
    (known : instruction.opcode? = some opcode) :
    instruction.text = opcode.text instruction.operands := by
  cases instruction <;> cases known <;> rfl

theorem decode_encode {opcode : Opcode} {operands : List Int}
    (admitted : opcode.Admits operands) :
    (decode (opcode.encode operands)).opcode? = some opcode ∧
      (decode (opcode.encode operands)).operands = operands := by
  obtain ⟨found, read, _⟩ := Opcode.encode_fits admitted
  rw [decode_of_matches found, Opcode.opcode?_instruction, Opcode.operands_instruction]
  exact ⟨rfl, read⟩

end Instruction

end Chip8
