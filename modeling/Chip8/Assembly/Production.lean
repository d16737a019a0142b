import Chip8.Assembly.Slots

namespace Chip8.Assembly

/-! The grammar of the assembler. An item is a label or else the first production that matches;
    line ends mean nothing. -/

/-- What is read at a place: an item, or why a number in it is not read. -/
abbrev Reading := Except Failure Item

namespace Cursor

def label (cursor : Cursor) : Option (Reading × Cursor) := do
  let (name, next) ← name cursor
  let final ← symbol ':' next
  some (.ok (.label name), final)

theorem label_shortens : Shortens label := by
  intro cursor item final accepted
  simp only [label, Option.bind_eq_bind, Option.bind_eq_some_iff, Prod.exists,
    Option.some.injEq, Prod.mk.injEq] at accepted
  obtain ⟨text, next, named, last, colon, _, rfl⟩ := accepted
  exact Nat.lt_trans (symbol_rest_length_lt colon) (name_shortens _ _ _ named)

end Cursor

inductive Production
  | instruction (opcode : Opcode)
  /-- The second register may be left out and counts as V0 then. -/
  | shift (opcode : Opcode)
  | bytes
  | words
  deriving DecidableEq, Repr

namespace Production

def read (production : Production) (cursor : Cursor) : Option (Reading × Cursor) :=
  match production with
  | instruction opcode => do
      let next ← Cursor.keyword opcode.form.mnemonic cursor
      let (operands, final) ← Cursor.slots opcode.form.slots next
      some ((gather operands).map (.instruction opcode), final)
  | shift opcode => do
      let next ← Cursor.keyword opcode.form.mnemonic cursor
      let (x, afterX) ← Cursor.register next
      match (Cursor.symbol ',' afterX).bind Cursor.register with
      | some (y, final) => some (.ok (.instruction opcode [.number x, .number y]), final)
      | none => some (.ok (.instruction opcode [.number x, .number 0]), afterX)
  | bytes => do
      let next ← Cursor.keyword "DB" cursor
      let (values, final) ← Cursor.listOf Cursor.number Cursor.number_shortens next
      some ((gather values).map fun values => .bytes (values.map Int.ofNat), final)
  | words => do
      let next ← Cursor.keyword "DW" cursor
      let (values, final) ← Cursor.listOf Cursor.address Cursor.address_shortens next
      some ((gather values).map .words, final)

theorem mnemonic_length_pos (opcode : Opcode) : 0 < opcode.form.mnemonic.toList.length := by
  cases opcode with
  | draw => decide
  | _ op => cases op <;> decide

theorem read_shortens (production : Production) : Cursor.Shortens production.read := by
  intro cursor item final accepted
  cases production with
  | instruction opcode =>
      simp only [read, Option.bind_eq_bind, Option.bind_eq_some_iff, Prod.exists,
        Option.some.injEq, Prod.mk.injEq] at accepted
      obtain ⟨next, mnemonic, operands, last, found, _, rfl⟩ := accepted
      have keywordLength := Cursor.keyword_rest_length_le mnemonic
      have slotsLength := Cursor.slots_rest_length_le found
      have mnemonicLength := mnemonic_length_pos opcode
      omega
  | shift opcode =>
      simp only [read, Option.bind_eq_bind, Option.bind_eq_some_iff, Prod.exists] at accepted
      obtain ⟨next, mnemonic, x, afterX, first, accepted⟩ := accepted
      have keywordLength := Cursor.keyword_rest_length_le mnemonic
      have registerLength := Cursor.register_shortens _ _ _ first
      split at accepted
      · next y last second =>
          cases accepted
          obtain ⟨place, comma, second⟩ := Option.bind_eq_some_iff.mp second
          have commaLength := Cursor.symbol_rest_length_lt comma
          have secondLength := Cursor.register_shortens _ _ _ second
          omega
      · cases accepted
        omega
  | bytes =>
      simp only [read, Option.bind_eq_bind, Option.bind_eq_some_iff, Prod.exists,
        Option.some.injEq, Prod.mk.injEq] at accepted
      obtain ⟨next, mnemonic, values, last, found, _, rfl⟩ := accepted
      have keywordLength := Cursor.keyword_rest_length_le mnemonic
      have listLength := Cursor.listOf_shortens _ _ _ _ _ found
      omega
  | words =>
      simp only [read, Option.bind_eq_bind, Option.bind_eq_some_iff, Prod.exists,
        Option.some.injEq, Prod.mk.injEq] at accepted
      obtain ⟨next, mnemonic, values, last, found, _, rfl⟩ := accepted
      have keywordLength := Cursor.keyword_rest_length_le mnemonic
      have listLength := Cursor.listOf_shortens _ _ _ _ _ found
      omega

/-- The order matters only where a text matches twice: a jump to a label that is spelled V0 must
    not hide the jump relative to register V0. -/
def all : List Production :=
  [instruction (.bare .clearScreen), instruction (.bare .ret),
    instruction (.address .jumpOffset), instruction (.address .jump),
    instruction (.address .call),
    instruction (.pair .skipEqual), instruction (.immediate .skipEqual),
    instruction (.pair .skipUnequal), instruction (.immediate .skipUnequal),
    instruction (.register .skipPressed), instruction (.register .skipReleased),
    instruction (.pair .load), instruction (.register .readDelay),
    instruction (.register .awaitKey), instruction (.register .load),
    instruction (.immediate .load), instruction (.address .loadIndex),
    instruction (.register .setDelay), instruction (.register .setSound),
    instruction (.register .glyph), instruction (.register .digits),
    instruction (.register .store),
    instruction (.pair .add), instruction (.register .addIndex), instruction (.immediate .add),
    instruction (.pair .or), instruction (.pair .and), instruction (.pair .xor),
    instruction (.pair .subtract), instruction (.pair .subtractFrom),
    shift (.pair .shiftRight), shift (.pair .shiftLeft),
    instruction (.immediate .random), instruction .draw, bytes, words]

end Production

/-- The item at a place, the productions being tried in the order given. -/
def Cursor.item (productions : List Production) (cursor : Cursor) : Option (Reading × Cursor) :=
  cursor.label.or (productions.findSome? (·.read cursor))

theorem Cursor.item_shortens (productions : List Production) :
    Cursor.Shortens (Cursor.item productions) := by
  intro cursor item final accepted
  rcases Option.or_eq_some_iff.mp accepted with labelled | ⟨_, produced⟩
  · exact Cursor.label_shortens _ _ _ labelled
  · obtain ⟨production, _, found⟩ := List.exists_of_findSome?_eq_some produced
    exact production.read_shortens _ _ _ found

end Chip8.Assembly
