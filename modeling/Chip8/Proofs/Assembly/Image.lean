import Chip8.Machine.Boot
import Chip8.Proofs.Assembly.Layout
import Chip8.Proofs.Assembly.Passage
import Chip8.Proofs.Instruction.Decoding
import Chip8.Proofs.Machine.Memory

namespace Chip8

theorem Machine.boot_of_fits {ρ : Type} {rom : List UInt8} (settings : Settings) (random : ρ)
    (fits : rom.length ≤ 3584) :
    boot rom settings random = .ok {
      memory := Memory.initial.put 0x200 rom
      stack := { depth := settings.stackDepth }
      display := { clip := settings.clipSprites }
      random
      settings } := by
  rw [boot, Memory.loadRom, if_pos fits]
  rfl

end Chip8

namespace Chip8.Assembly

/-! The memory of a machine that was booted with an assembled program, item by item: the decoder
    finds every instruction again that was written, and all data stand at their addresses. -/

/-- A number stands for itself and a label for the one address at which it is defined. -/
def Operand.Denotes (items : List Item) : Operand → Int → Prop
  | number written, value => value = written
  | label name, value =>
      ∃ address : Nat, value = address ∧ ∀ other, DefinedAt items name other ↔ other = address

/-- Memory holds the program of these items, and around it the font and zeros. -/
structure Carries (memory : Memory) (items : List Item) : Prop where
  instructions : ∀ before opcode operands after,
    items = before ++ .instruction opcode operands :: after →
      ∃ word values, memory.read16 (addressAfter before) = .ok word ∧
        List.Forall₂ (Operand.Denotes items) operands values ∧
          (Instruction.decode word.toNat).opcode? = some opcode ∧
            (Instruction.decode word.toNat).operands = values
  bytes : ∀ before values after, items = before ++ .bytes values :: after →
    ∀ (index : Nat) (bound : index < values.length),
      ∃ byte, memory.read8 (addressAfter before + index : Nat) = .ok byte ∧
        (byte.toNat : Int) = values[index]
  words : ∀ before operands after, items = before ++ .words operands :: after →
    ∀ (index : Nat) (bound : index < operands.length),
      ∃ high low, memory.read8 (addressAfter before + 2 * index : Nat) = .ok high ∧
        memory.read8 (addressAfter before + 2 * index + 1 : Nat) = .ok low ∧
          operands[index].Denotes items (0x100 * high.toNat + low.toNat : Nat)
  elsewhere : ∀ address : Address, address.val < 0x200 ∨ addressAfter items ≤ address.val →
    memory.read8 address.val = .ok (Memory.font.getD address.val 0)

variable {layout : Layout} {items before after : List Item} {program : List UInt8}
  {memory : Memory}

namespace Layout

theorem LaysOut.denotes_of_resolve {operand : Operand} {value : Int} (laid : layout.LaysOut items)
    (resolved : layout.resolve operand = .ok value) : operand.Denotes items value := by
  cases operand with
  | number written =>
      cases resolved
      rfl
  | label name =>
      simp only [resolve] at resolved
      split at resolved
      · next address found =>
          cases resolved
          refine ⟨address, rfl, fun other => ?_⟩
          rw [← laid.labels, found, Option.some.injEq, eq_comm]
      · contradiction

theorem LaysOut.denote_of_mapM {operands : List Operand} {values : List Int} (laid : layout.LaysOut items)
    (resolved : operands.mapM layout.resolve = .ok values) :
    List.Forall₂ (Operand.Denotes items) operands values :=
  (mapM_eq_ok_iff.mp resolved).imp fun _ _ => laid.denotes_of_resolve

theorem admits_of_checkOperands {opcode : Opcode} {values : List Int}
    (checked : checkOperands opcode values = .ok ()) : opcode.Admits values := by
  simp only [checkOperands] at checked
  split at checked
  · contradiction
  · next absent =>
      split at checked
      · next sameLength =>
          rw [Opcode.Admits, List.forall₂_iff_zip]
          refine ⟨sameLength.symm, fun {field value} member => ?_⟩
          simpa using List.find?_eq_none.mp absent (field, value) member
      · contradiction

theorem wordBytes_word {value : Int} (range : 0 ≤ value ∧ value ≤ 0xFFFF) :
    ∃ high low, wordBytes value = [high, low] ∧
      value = (0x100 * high.toNat + low.toNat : Nat) := by
  have high := toNat_ofInt (value / 0x100)
  have low := toNat_ofInt value
  exact ⟨_, _, rfl, by omega⟩

end Layout

theorem carries_instruction {opcode : Opcode} {operands : List Operand}
    (laid : layout.LaysOut (before ++ .instruction opcode operands :: after))
    (emitted : layout.emit = .ok program) (held : memory.Holds 0x200 program) :
    ∃ word values, memory.read16 (addressAfter before) = .ok word ∧
      List.Forall₂ (Operand.Denotes (before ++ .instruction opcode operands :: after)) operands
          values ∧
        (Instruction.decode word.toNat).opcode? = some opcode ∧
          (Instruction.decode word.toNat).operands = values := by
  obtain ⟨front, chunk, back, rfl, start, written⟩ := laid.emit_split emitted rfl
  obtain ⟨values, evaluated, encoded⟩ := bind_eq_ok_iff.mp written
  obtain ⟨resolved, translated, checked⟩ := bind_eq_ok_iff.mp evaluated
  obtain ⟨_, admitted, same⟩ := bind_eq_ok_iff.mp checked
  cases same
  cases encoded
  have admits := Layout.admits_of_checkOperands admitted
  obtain ⟨_, _, range⟩ := Opcode.encode_fits admits
  obtain ⟨high, low, bytes, value⟩ := Layout.wordBytes_word range
  have here := held.append_left.append_right
  rw [start, bytes] at here
  have decoded := Instruction.decode_encode admits
  rw [value] at decoded
  refine ⟨_, values, Memory.read16_of_holds here, laid.denote_of_mapM translated, ?_⟩
  have whole : (UInt16.ofNat (0x100 * high.toNat + low.toNat)).toNat =
      0x100 * high.toNat + low.toNat := by
    have highLt := high.toNat_lt
    have lowLt := low.toNat_lt
    rw [UInt16.toNat_ofNat']
    omega
  rwa [whole]

theorem carries_byte {values : List Int} {index : Nat}
    (laid : layout.LaysOut (before ++ .bytes values :: after))
    (emitted : layout.emit = .ok program) (held : memory.Holds 0x200 program)
    (bound : index < values.length) :
    ∃ byte, memory.read8 (addressAfter before + index : Nat) = .ok byte ∧
      (byte.toNat : Int) = values[index] := by
  obtain ⟨front, chunk, back, rfl, start, written⟩ := laid.emit_split emitted rfl
  cases written
  have here := held.append_left.append_right
  rw [start] at here
  have range := laid.bytes values (by simp) values[index] (List.getElem_mem bound)
  have converted := toNat_ofInt values[index]
  have inChunk : index < (values.map UInt8.ofInt).length := by rwa [List.length_map]
  refine ⟨UInt8.ofInt values[index], ?_, by omega⟩
  rw [Memory.read8_of_holds here inChunk, List.getElem_map]

theorem carries_word {operands : List Operand} {index : Nat}
    (laid : layout.LaysOut (before ++ .words operands :: after))
    (emitted : layout.emit = .ok program) (held : memory.Holds 0x200 program)
    (bound : index < operands.length) :
    ∃ high low, memory.read8 (addressAfter before + 2 * index : Nat) = .ok high ∧
      memory.read8 (addressAfter before + 2 * index + 1 : Nat) = .ok low ∧
        operands[index].Denotes (before ++ .words operands :: after)
          (0x100 * high.toNat + low.toNat : Nat) := by
  obtain ⟨front, chunk, back, rfl, start, written⟩ := laid.emit_split emitted rfl
  obtain ⟨chunks, translated, joined⟩ := bind_eq_ok_iff.mp written
  cases joined
  have split : operands = operands.take index ++ operands[index] :: operands.drop (index + 1) := by
    rw [List.getElem_cons_drop, List.take_append_drop]
  rw [split] at translated
  obtain ⟨earlier, word, later, rfl, wordsBefore, here⟩ := mapM_split translated
  obtain ⟨value, resolved, range, rfl⟩ := Layout.word_eq_ok_iff.mp here
  obtain ⟨high, low, bytes, rfl⟩ := Layout.wordBytes_word range
  have placed := held.append_left.append_right
  have skipped := Layout.length_words wordsBefore
  rw [List.length_take_of_le (Nat.le_of_lt bound)] at skipped
  rw [start, List.flatten_append, List.flatten_cons, bytes] at placed
  have twoBytes := placed.append_right
  rw [skipped] at twoBytes
  have first := Memory.read8_of_holds twoBytes (show 0 < _ by simp)
  have second := Memory.read8_of_holds twoBytes (show 1 < _ by simp)
  exact ⟨high, low, by simpa using first, by simpa using second, laid.denotes_of_resolve resolved⟩

theorem carries_of_layout (laid : layout.LaysOut items) (emitted : layout.emit = .ok program)
    (fits : program.length ≤ 3584) : Carries (Memory.initial.put 0x200 program) items := by
  have held : (Memory.initial.put 0x200 program).Holds 0x200 program :=
    Memory.holds_put (by omega)
  refine ⟨?_, ?_, ?_, ?_⟩
  · intro before opcode operands after split
    subst split
    exact carries_instruction laid emitted held
  · intro before values after split index bound
    subst split
    exact carries_byte laid emitted held bound
  · intro before operands after split index bound
    subst split
    exact carries_word laid emitted held bound
  · intro address outside
    rw [← laid.emit_length emitted] at outside
    rw [Memory.read8_cell, Memory.cell_put_frame outside, Memory.cell_initial]

open Cursor in
/-- Every item of the text is found in the memory of the booted machine, labels resolved whether
    they are defined before or after their use. Where the second register of a shift is left out
    in the text, the item has V0 in its place. -/
theorem boot_assembled {ρ : Type} {source : String} (settings : Settings) (random : ρ)
    (assembled : assemble source = .ok program) (fits : program.length ≤ 3584) :
    ∃ items machine, parse source = .ok items ∧
      Machine.boot program settings random = .ok machine ∧ Carries machine.memory items ∧
      ∀ before place,
        Passes Production.all (start (Text.expandTabs source.toList)) (before.map .ok) place →
        ∀ op afterMnemonic x afterX, op = .shiftRight ∨ op = .shiftLeft →
          keyword op.form.mnemonic place = some afterMnemonic →
          register afterMnemonic = some (x, afterX) →
          (symbol ',' afterX).bind register = none →
            ∃ after, items = before ++ .instruction (.pair op) [.number x, .number 0] :: after := by
  obtain ⟨items, parsed, written⟩ := bind_eq_ok_iff.mp assembled
  obtain ⟨layout, laid, emitted⟩ := assembleItems_eq_ok written
  have booted := Machine.boot_of_fits settings random fits
  refine ⟨items, _, parsed, booted, carries_of_layout laid emitted fits, ?_⟩
  intro before place passed op afterMnemonic x afterX shift mnemonic first single
  obtain ⟨final, whole, finished⟩ := parse_eq_ok_iff.mp parsed
  have read := item_of_single_shift shift mnemonic first single
  have prefixed := passed.items_eq
  rw [whole.items_eq, items_of_none (item_eq_none_of_end finished), items_of_some read,
    List.append_nil] at prefixed
  have readings := congrArg Prod.fst prefixed
  obtain ⟨front, back, rfl, sameFront, sameBack⟩ := List.map_eq_append_iff.mp readings
  obtain ⟨item, after, rfl, here, _⟩ := List.map_eq_cons_iff.mp sameBack
  cases here
  have sameItems := (List.map_inj_right fun _ _ => Except.ok.inj).mp sameFront
  exact ⟨after, by rw [sameItems]⟩

theorem boot_assembled_forward_label :
    assemble "a: SHR V3\nJP b\nDB 1, 2\nb: DW a, b" =
        .ok [0x83, 0x06, 0x12, 0x06, 1, 2, 0x02, 0x00, 0x02, 0x06] ∧
      ∃ items machine, parse "a: SHR V3\nJP b\nDB 1, 2\nb: DW a, b" = .ok items ∧
        Machine.boot [0x83, 0x06, 0x12, 0x06, 1, 2, 0x02, 0x00, 0x02, 0x06] {} () = .ok machine ∧
          Carries machine.memory items ∧ ∃ after, items = [.label "a"] ++
            .instruction (.pair .shiftRight) [.number 3, .number 0] :: after := by
  have assembled : assemble "a: SHR V3\nJP b\nDB 1, 2\nb: DW a, b" =
      .ok [0x83, 0x06, 0x12, 0x06, 1, 2, 0x02, 0x00, 0x02, 0x06] := by decide +kernel
  obtain ⟨items, machine, parsed, booted, carried, shifts⟩ :=
    boot_assembled {} () assembled (by decide)
  refine ⟨assembled, items, machine, parsed, booted, carried, ?_⟩
  exact shifts [.label "a"] ⟨some ':', " SHR V3\nJP b\nDB 1, 2\nb: DW a, b".toList⟩
    (.item (by decide +kernel) (.stay _)) .shiftRight
    ⟨some 'R', " V3\nJP b\nDB 1, 2\nb: DW a, b".toList⟩ 3
    ⟨some '3', "\nJP b\nDB 1, 2\nb: DW a, b".toList⟩ (.inl rfl)
    (by decide +kernel) (by decide +kernel) (by decide +kernel)

end Chip8.Assembly
