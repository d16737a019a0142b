import Chip8.Assembly.Assemble
import Chip8.Proofs.Outcome

namespace Chip8.Assembly

/-! What the first pass records about the items it has gone through, and where in the output the
    second pass writes each of them. -/

/-- How many bytes of the program an item takes up. -/
def Item.size : Item → Nat
  | label _ => 0
  | instruction _ _ => 2
  | bytes values => values.length
  | words values => 2 * values.length

/-- Where the program goes on after the items at its beginning. -/
def addressAfter (items : List Item) : Nat :=
  0x200 + (items.map Item.size).sum

def Item.command? : Item → Option Command
  | label _ => none
  | instruction opcode operands => some (.instruction opcode operands)
  | bytes values => some (.bytes (values.map UInt8.ofInt))
  | words values => some (.words values)

/-- The items define the label, and this is the address of what follows its definition. -/
def DefinedAt (items : List Item) (name : String) (address : Nat) : Prop :=
  ∃ before after, items = before ++ .label name :: after ∧ address = addressAfter before

theorem addressAfter_append (before after : List Item) :
    addressAfter (before ++ after) = addressAfter before + (after.map Item.size).sum := by
  simp only [addressAfter, List.map_append, List.sum_append, Nat.add_assoc]

theorem definedAt_append_single {items : List Item} {item : Item} {name : String}
    {address : Nat} :
    DefinedAt (items ++ [item]) name address ↔
      DefinedAt items name address ∨ item = .label name ∧ address = addressAfter items := by
  constructor
  · intro found
    obtain ⟨before, after, split, rfl⟩ := found
    rcases List.eq_nil_or_concat after with rfl | ⟨middle, last, rfl⟩
    · obtain ⟨rfl, same⟩ := List.append_inj' split rfl
      exact Or.inr ⟨(List.cons.inj same).1, rfl⟩
    · rw [List.concat_eq_append, ← List.cons_append, ← List.append_assoc] at split
      obtain ⟨rfl, _⟩ := List.append_inj' split rfl
      exact Or.inl ⟨before, middle, rfl, rfl⟩
  · intro found
    rcases found with ⟨before, after, rfl, rfl⟩ | ⟨rfl, rfl⟩
    · exact ⟨before, after ++ [item], by simp, rfl⟩
    · exact ⟨items, [], rfl, rfl⟩

namespace Layout

/-- The first pass has gone through exactly these items. -/
structure LaysOut (layout : Layout) (items : List Item) : Prop where
  offset : layout.offset = addressAfter items
  commands : layout.commands.toList = items.filterMap Item.command?
  labels : ∀ name address, layout.labels.lookup name = some address ↔ DefinedAt items name address
  bytes : ∀ values, .bytes values ∈ items → ∀ value ∈ values, 0 ≤ value ∧ value ≤ 0xFF

theorem laysOut_nil : LaysOut {} [] where
  offset := rfl
  commands := rfl
  labels := by simp [DefinedAt]
  bytes := by simp

theorem mapM_byte_eq_ok {values : List Int} {bytes : List UInt8}
    (converted : values.mapM byte = .ok bytes) :
    bytes = values.map UInt8.ofInt ∧ ∀ value ∈ values, 0 ≤ value ∧ value ≤ 0xFF := by
  induction mapM_eq_ok_iff.mp converted with
  | nil => simp
  | @cons value byte values bytes first rest ih =>
      obtain ⟨same, within⟩ := ih (mapM_eq_ok_iff.mpr rest)
      simp only [Layout.byte] at first
      split at first
      · next range =>
          cases first
          exact ⟨by rw [same, List.map_cons], List.forall_mem_cons.mpr ⟨range, within⟩⟩
      · contradiction

theorem LaysOut.place {layout : Layout} {items : List Item} {item : Item} {command : Command}
    (laid : layout.LaysOut items) (translated : item.command? = some command)
    (size : command.size = item.size)
    (within : ∀ values, item = .bytes values → ∀ value ∈ values, 0 ≤ value ∧ value ≤ 0xFF) :
    (layout.place command).LaysOut (items ++ [item]) where
  offset := by
    rw [addressAfter_append, List.map_singleton, List.sum_singleton, ← size, ← laid.offset]
    rfl
  commands := by
    rw [List.filterMap_append, ← laid.commands]
    simp [Layout.place, translated]
  labels := by
    intro name address
    have noLabel : item ≠ .label name := by
      intro same
      subst same
      cases translated
    rw [definedAt_append_single, ← laid.labels]
    simp [Layout.place, noLabel]
  bytes := by
    intro values member
    rcases List.mem_append.mp member with earlier | last
    · exact laid.bytes values earlier
    · exact within values (List.mem_singleton.mp last).symm

theorem LaysOut.add {layout next : Layout} {items : List Item} {item : Item}
    (laid : layout.LaysOut items) (added : layout.add item = .ok next) :
    next.LaysOut (items ++ [item]) := by
  cases item with
  | label name =>
      simp only [Layout.add] at added
      split at added
      · contradiction
      · next fresh =>
          cases added
          have absent : layout.labels.lookup name = none := Option.not_isSome_iff_eq_none.mp fresh
          refine ⟨?_, ?_, ?_, ?_⟩
          · rw [addressAfter_append, laid.offset]
            rfl
          · simp [laid.commands, Item.command?]
          · intro other address
            rw [definedAt_append_single, ← laid.labels, List.lookup_append, Option.or_eq_some_iff]
            by_cases same : other = name
            · subst other
              simp [absent, laid.offset, eq_comm]
            · have elsewhere : [(name, layout.offset)].lookup other = none := by
                simp [List.lookup_cons, beq_false_of_ne same]
              simp [elsewhere, Ne.symm same]
          · simpa using laid.bytes
  | instruction opcode operands =>
      cases added
      exact laid.place rfl rfl (by simp)
  | bytes values =>
      simp only [Layout.add] at added
      obtain ⟨bytes, converted, placed⟩ := bind_eq_ok_iff.mp added
      obtain ⟨rfl, within⟩ := mapM_byte_eq_ok converted
      cases placed
      refine laid.place rfl (by simp [Command.size, Item.size]) ?_
      intro value found
      cases found
      exact within
  | words values =>
      cases added
      exact laid.place rfl rfl (by simp)

theorem LaysOut.addAll {layout final : Layout} {before items : List Item}
    (laid : layout.LaysOut before) (added : layout.addAll items = (.ok (), final)) :
    final.LaysOut (before ++ items) := by
  induction items generalizing layout before with
  | nil =>
      cases added
      rwa [List.append_nil]
  | cons item rest ih =>
      simp only [Layout.addAll] at added
      split at added
      · next next found => simpa using ih (laid.add found) added
      · cases added

/-! The second pass. -/

theorem length_wordBytes (value : Int) : (wordBytes value).length = 2 := rfl

theorem word_eq_ok_iff {layout : Layout} {operand : Operand} {chunk : List UInt8} :
    layout.word operand = .ok chunk ↔
      ∃ value, layout.resolve operand = .ok value ∧ (0 ≤ value ∧ value ≤ 0xFFFF) ∧
        chunk = wordBytes value := by
  rw [word, bind_eq_ok_iff]
  refine exists_congr fun value => and_congr_right fun _ => ?_
  split
  · next range => simp [range, eq_comm]
  · next range => simp [range]

theorem length_words {layout : Layout} {operands : List Operand} {chunks : List (List UInt8)}
    (translated : operands.mapM layout.word = .ok chunks) :
    chunks.flatten.length = 2 * operands.length := by
  induction mapM_eq_ok_iff.mp translated with
  | nil => rfl
  | cons first rest ih =>
      obtain ⟨value, _, _, rfl⟩ := word_eq_ok_iff.mp first
      rw [List.flatten_cons, List.length_append, ih (mapM_eq_ok_iff.mpr rest), length_wordBytes,
        List.length_cons]
      omega

theorem commandBytes_length {layout : Layout} {command : Command} {chunk : List UInt8}
    (written : layout.commandBytes command = .ok chunk) : chunk.length = command.size := by
  cases command with
  | instruction opcode operands =>
      obtain ⟨values, _, encoded⟩ := bind_eq_ok_iff.mp written
      cases encoded
      rfl
  | bytes values =>
      cases written
      rfl
  | words values =>
      obtain ⟨chunks, translated, joined⟩ := bind_eq_ok_iff.mp written
      cases joined
      exact length_words translated

theorem length_chunks {layout : Layout} {commands : List Command} {chunks : List (List UInt8)}
    (written : commands.mapM layout.commandBytes = .ok chunks) :
    chunks.flatten.length = (commands.map Command.size).sum := by
  induction mapM_eq_ok_iff.mp written with
  | nil => rfl
  | cons first rest ih =>
      rw [List.flatten_cons, List.length_append, ih (mapM_eq_ok_iff.mpr rest),
        commandBytes_length first, List.map_cons, List.sum_cons]

theorem sum_command_sizes (items : List Item) :
    ((items.filterMap Item.command?).map Command.size).sum = (items.map Item.size).sum := by
  induction items with
  | nil => rfl
  | cons item rest ih =>
      cases item <;>
        simp [List.filterMap_cons, Item.command?, Item.size, Command.size, ih]

/-- What is written for an item stands behind what is written for all items before it. -/
theorem LaysOut.emit_split {layout : Layout} {before after : List Item} {item : Item}
    {command : Command} {program : List UInt8}
    (laid : layout.LaysOut (before ++ item :: after)) (emitted : layout.emit = .ok program)
    (translated : item.command? = some command) :
    ∃ front chunk back, program = front ++ chunk ++ back ∧
      0x200 + front.length = addressAfter before ∧ layout.commandBytes command = .ok chunk := by
  obtain ⟨chunks, written, joined⟩ := bind_eq_ok_iff.mp emitted
  cases joined
  rw [laid.commands, List.filterMap_append, List.filterMap_cons_some translated] at written
  obtain ⟨front, chunk, back, rfl, earlier, here⟩ := mapM_split written
  refine ⟨front.flatten, chunk, back.flatten, by simp, ?_, here⟩
  rw [length_chunks earlier, sum_command_sizes, addressAfter]

theorem LaysOut.emit_length {layout : Layout} {items : List Item} {program : List UInt8}
    (laid : layout.LaysOut items) (emitted : layout.emit = .ok program) :
    0x200 + program.length = addressAfter items := by
  obtain ⟨chunks, written, joined⟩ := bind_eq_ok_iff.mp emitted
  cases joined
  rw [length_chunks written, laid.commands, sum_command_sizes, addressAfter]

end Layout

theorem assembleItems_eq_ok {items : List Item} {program : List UInt8}
    (assembled : assembleItems items = .ok program) :
    ∃ layout : Layout, layout.LaysOut items ∧ layout.emit = .ok program := by
  simp only [assembleItems] at assembled
  split at assembled
  · next layout added => exact ⟨layout, by simpa using Layout.laysOut_nil.addAll added, assembled⟩
  · cases assembled

end Chip8.Assembly
