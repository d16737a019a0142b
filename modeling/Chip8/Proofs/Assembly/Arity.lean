import Chip8.Proofs.Assembly.Passage

namespace Chip8

/-- The field whose operand stands in the slot. -/
def Slot.field? : Slot → Option Field
  | operand field => some field
  | fixed _ => none

theorem Opcode.slots_fields (opcode : Opcode) :
    opcode.form.slots.filterMap Slot.field? = opcode.fields := by
  cases opcode with
  | draw => rfl
  | _ op => cases op <;> rfl

end Chip8

namespace Chip8.Assembly

/-! Every instruction that is read from a text has one operand for each field of its operation. -/

def Item.Shaped : Item → Prop
  | instruction opcode operands => operands.length = opcode.fields.length
  | _ => True

variable {cursor next final : Cursor} {operands : List (Except Failure Operand)} {item : Item}

namespace Cursor

theorem slot_arity {shape : Slot} (read : slot shape cursor = some (operands, next)) :
    operands.length = ([shape].filterMap Slot.field?).length := by
  cases shape with
  | operand field =>
      simp only [slot, Option.map_eq_some_iff, Prod.exists, Prod.mk.injEq] at read
      obtain ⟨value, after, _, rfl, _⟩ := read
      rfl
  | fixed words =>
      simp only [slot, Option.map_eq_some_iff, Prod.mk.injEq] at read
      obtain ⟨after, _, rfl, _⟩ := read
      rfl

theorem arity_cons {shape : Slot} {shapes : List Slot}
    {first more : List (Except Failure Operand)}
    (here : first.length = ([shape].filterMap Slot.field?).length)
    (further : more.length = (shapes.filterMap Slot.field?).length) :
    (first ++ more).length = ((shape :: shapes).filterMap Slot.field?).length := by
  rw [← List.singleton_append, List.filterMap_append, List.length_append, List.length_append, here,
    further]

theorem furtherSlots_arity {shapes : List Slot}
    (read : furtherSlots shapes cursor = some (operands, next)) :
    operands.length = (shapes.filterMap Slot.field?).length := by
  induction shapes generalizing cursor operands next with
  | nil =>
      cases read
      rfl
  | cons shape shapes ih =>
      obtain ⟨_, _, _, _, _, here, further, rfl⟩ := furtherSlots_cons_eq_some_iff.mp read
      exact arity_cons (slot_arity here) (ih further)

theorem slots_arity {shapes : List Slot} (read : slots shapes cursor = some (operands, next)) :
    operands.length = (shapes.filterMap Slot.field?).length := by
  cases shapes with
  | nil =>
      cases read
      rfl
  | cons shape shapes =>
      obtain ⟨_, _, _, here, further, rfl⟩ := slots_cons_eq_some_iff.mp read
      exact arity_cons (slot_arity here) (furtherSlots_arity further)

end Cursor

theorem Production.read_shaped {production : Production} (listed : production ∈ all)
    (read : production.read cursor = some (.ok item, next)) : item.Shaped := by
  cases production with
  | instruction opcode =>
      obtain ⟨_, _, _, found, same⟩ := read_instruction_iff.mp read
      obtain ⟨operands, gathered, rfl⟩ := map_eq_ok_iff.mp same.symm
      have arity := Cursor.slots_arity found
      rwa [gather_eq_ok_iff.mp gathered, List.length_map, opcode.slots_fields] at arity
  | shift opcode =>
      have fromTable : ∀ production ∈ all, ∀ opcode ∈ Opcode.all, production = shift opcode →
          2 = opcode.fields.length := by decide +kernel
      have pair := fromTable _ listed opcode opcode.mem_all rfl
      obtain ⟨_, _, _, _, _, ⟨_, _, same⟩ | ⟨_, _, same⟩⟩ := read_shift_iff.mp read
      all_goals
        cases same
        exact pair
  | bytes =>
      obtain ⟨_, _, _, _, same⟩ := read_bytes_iff.mp read
      obtain ⟨_, _, rfl⟩ := map_eq_ok_iff.mp same.symm
      trivial
  | words =>
      obtain ⟨_, _, _, _, same⟩ := read_words_iff.mp read
      obtain ⟨_, _, rfl⟩ := map_eq_ok_iff.mp same.symm
      trivial

namespace Cursor

theorem item_shaped (read : cursor.item Production.all = some (.ok item, next)) :
    item.Shaped := by
  rcases Option.or_eq_some_iff.mp read with labelled | ⟨_, produced⟩
  · obtain ⟨_, _, _, _, same⟩ := label_eq_some_iff.mp labelled
    cases same
    trivial
  · obtain ⟨production, listed, found⟩ := List.exists_of_findSome?_eq_some produced
    exact production.read_shaped listed found

theorem Passes.shaped {readings : List Reading}
    (passed : Passes Production.all cursor readings final) :
    ∀ item, .ok item ∈ readings → item.Shaped := by
  induction passed with
  | stay cursor => exact fun _ member => absurd member List.not_mem_nil
  | item read _ ih =>
      intro item member
      rcases List.mem_cons.mp member with rfl | later
      · exact item_shaped read
      · exact ih item later

end Cursor

theorem shaped_of_parse {source : String} {items : List Item} (parsed : parse source = .ok items) :
    ∀ item ∈ items, item.Shaped := by
  obtain ⟨final, passed, _⟩ := parse_eq_ok_iff.mp parsed
  exact fun item member => passed.shaped item (List.mem_map_of_mem member)

end Chip8.Assembly
