import Chip8.Proofs.Assembly.Joining
import Chip8.Proofs.Assembly.Spacing

namespace Chip8.Assembly

/-! The case of letters carries no meaning but in the names of labels. A text in capitals consists
    of the same items with their labels in capitals, and it is assembled to the same program unless
    two labels have become one. -/

namespace Cursor

def upper (cursor : Cursor) : Cursor :=
  ⟨cursor.last.map Char.toUpper, cursor.rest.map Char.toUpper⟩

theorem upper_beq {mark : Char}
    (fixed : ∀ code < 128, ((Char.ofNat code).toUpper == mark) = (Char.ofNat code == mark))
    (character : Char) : (character.toUpper == mark) = (character == mark) :=
  @toUpper_congr Bool (· == mark) fixed character

theorem skipFrom_upper (commented : Bool) (last : Option Char) (text : List Char) :
    skipFrom commented (last.map Char.toUpper) (text.map Char.toUpper) =
      (skipFrom commented last text).upper := by
  have newline (character : Char) : (character.toUpper == '\n') = (character == '\n') :=
    upper_beq (by decide +kernel) character
  have semicolon (character : Char) : (character.toUpper == ';') = (character == ';') :=
    upper_beq (by decide +kernel) character
  have slash (character : Char) : (character.toUpper == '/') = (character == '/') :=
    upper_beq (by decide +kernel) character
  have blank (character : Char) : isBlank character.toUpper = isBlank character :=
    toUpper_congr (by decide +kernel) character
  induction text generalizing commented last with
  | nil => rfl
  | cons character rest ih =>
      have ahead : ((rest.map Char.toUpper).head? == some '/') = (rest.head? == some '/') := by
        cases rest with
        | nil => rfl
        | cons next more => exact slash next
      have further (commented : Bool) := ih commented (some character)
      simp only [Option.map_some] at further
      simp only [List.map_cons, skipFrom, bne, newline, blank, semicolon, slash, ahead, further]
      repeat' split
      all_goals rfl

theorem rendering_upper :
    Rendering Char.toUpper (fun _ => True) (fun cursor copy => copy = cursor.upper) where
  recased _ := Or.inr rfl
  skip_within _ _ _ := trivial
  eat_within _ _ _ _ _ := trivial
  last_like cursor copy like := by
    subst like
    cases last : cursor.last with
    | none => simp [upper, last]
    | some character => simp [upper, last, plain_clings.upper]
  skip_like cursor copy like _ _ := by
    subst like
    exact skipFrom_upper false cursor.last cursor.rest
  eat_like last character rest copy like _ _ := by
    subst like
    exact ⟨_, rfl, rfl⟩
  eat_back cursor copy character more like whole _ := by
    subst like
    obtain ⟨original, rest, here, rfl, rfl⟩ := List.map_eq_cons_iff.mp whole
    exact ⟨original, rest, here, rfl, rfl⟩

end Cursor

theorem toUpper_eq_iff {mark : Char}
    (fixed : ∀ code < 128, ((Char.ofNat code).toUpper == mark) = (Char.ofNat code == mark))
    {character : Char} : character.toUpper = mark ↔ character = mark := by
  rw [← beq_iff_eq, Cursor.upper_beq fixed, beq_iff_eq]

theorem expandTabsFrom_upper (column : Nat) (text : List Char) :
    Text.expandTabsFrom column (text.map Char.toUpper) =
      (Text.expandTabsFrom column text).map Char.toUpper := by
  have tab {character : Char} : character.toUpper = '\t' ↔ character = '\t' :=
    toUpper_eq_iff (by decide +kernel)
  have newline {character : Char} : character.toUpper = '\n' ↔ character = '\n' :=
    toUpper_eq_iff (by decide +kernel)
  have carriage {character : Char} : character.toUpper = '\r' ↔ character = '\r' :=
    toUpper_eq_iff (by decide +kernel)
  induction text generalizing column with
  | nil => rfl
  | cons character rest ih =>
      simp only [List.map_cons, Text.expandTabsFrom, tab, newline, carriage, ih]
      split
      · rw [List.map_append, List.map_replicate]
        rfl
      · split <;> rfl

open Cursor

theorem parse_upper {source : String} {items : List Item} (parsed : parse source = .ok items) :
    parse (respell Char.toUpper source) = .ok (items.map (·.respelled Char.toUpper)) := by
  obtain ⟨final, passed, finished⟩ := parse_eq_ok_iff.mp parsed
  have ends (copy : Cursor) (like : copy = final.upper) : copy.skip.rest = [] := by
    rw [like, skip, upper, skipFrom_upper]
    change (final.skip.rest).map Char.toUpper = []
    rw [finished]
    rfl
  obtain ⟨after, ⟨passed, finished⟩, _⟩ :=
    (rendering_upper.passes_to_end passed ends).copies trivial _ rfl
  refine parse_eq_ok_iff.mpr ⟨after, ?_, finished⟩
  rw [respell, String.toList_ofList, Text.expandTabs, expandTabsFrom_upper,
    ← Reading.map_respelled_ok]
  exact passed

/-! The program of the renamed items. -/

section Renaming

variable {spell : Char → Char} {items : List Item} {program : List UInt8}

theorem size_respelled (item : Item) : (item.respelled spell).size = item.size := by
  cases item <;> simp [Item.respelled, Item.size]

theorem addressAfter_respelled (items : List Item) :
    addressAfter (items.map (·.respelled spell)) = addressAfter items := by
  simp [addressAfter, Function.comp_def, size_respelled]

theorem DefinedAt.respelled {name : String} {address : Nat}
    (defined : DefinedAt items name address) :
    DefinedAt (items.map (·.respelled spell)) (respell spell name) address := by
  obtain ⟨before, after, rfl, rfl⟩ := defined
  refine
    ⟨before.map (·.respelled spell), after.map (·.respelled spell), by simp [Item.respelled], ?_⟩
  rw [addressAfter_respelled]

theorem respelled_eq_label_iff {item : Item} {name : String} :
    item.respelled spell = .label name ↔ ∃ original, item = .label original ∧
      respell spell original = name := by
  cases item <;> simp [Item.respelled]

/-- No two labels have become one. -/
def Distinct (spell : Char → Char) (items : List Item) : Prop :=
  ∀ name other, .label name ∈ items → .label other ∈ items →
    respell spell name = respell spell other → name = other

theorem count_respelled (apart : Distinct spell items) (name : String) :
    (items.map (·.respelled spell)).count (.label name) = 0 ∨
      ∃ original, (items.map (·.respelled spell)).count (.label name) =
        items.count (.label original) := by
  by_cases defined : .label name ∈ items.map (·.respelled spell)
  · obtain ⟨item, listed, same⟩ := List.mem_map.mp defined
    obtain ⟨original, rfl, respelled⟩ := respelled_eq_label_iff.mp same
    refine Or.inr ⟨original, ?_⟩
    rw [List.count, List.countP_map, List.count]
    refine List.countP_congr fun item member => ?_
    simp only [Function.comp_apply, beq_iff_eq, respelled_eq_label_iff]
    constructor
    · intro found
      obtain ⟨other, rfl, again⟩ := found
      rw [apart other original member listed (again.trans respelled.symm)]
    · intro same
      subst same
      exact ⟨original, rfl, respelled⟩
  · exact Or.inl (List.count_eq_zero.mpr defined)

theorem faultless_respelled (apart : Distinct spell items)
    (sound : Faultless Item.LayoutFault items) :
    Faultless Item.LayoutFault (items.map (·.respelled spell)) := by
  rw [faultless_layout_iff] at sound ⊢
  obtain ⟨labels, bytes⟩ := sound
  refine ⟨fun name => ?_, fun values member => ?_⟩
  · rcases count_respelled apart name with none | ⟨original, same⟩
    · rw [none]
      exact Nat.zero_le 1
    · rw [same]
      exact labels original
  · obtain ⟨item, listed, same⟩ := List.mem_map.mp member
    cases item with
    | bytes values =>
        cases same
        exact bytes values listed
    | _ => cases same

/-- Labels that keep apart may be renamed. -/
theorem assembleItems_respelled (apart : Distinct spell items)
    (assembled : assembleItems items = .ok program) :
    assembleItems (items.map (·.respelled spell)) = .ok program := by
  obtain ⟨layout, added, emitted⟩ := assembleItems_eq_ok_iff.mp assembled
  obtain ⟨again, addedAgain⟩ := Layout.exists_addAll_iff.mpr
    (faultless_respelled apart (Layout.exists_addAll_iff.mp ⟨layout, added⟩))
  have laid : layout.LaysOut items := Layout.laysOut_nil.addAll added
  have laidAgain : again.LaysOut (items.map (·.respelled spell)) :=
    Layout.laysOut_nil.addAll addedAgain
  obtain ⟨chunks, written, rfl⟩ := Layout.emit_eq_ok_iff.mp emitted
  refine assembleItems_eq_ok_iff.mpr
    ⟨again, addedAgain, Layout.emit_eq_ok_iff.mpr ⟨chunks, ?_, rfl⟩⟩
  rw [laid.commands] at written
  rw [laidAgain.commands]
  exact Layout.chunks_respelled (fun _ _ _ _ _ resolved =>
    laid.resolve_respelled laidAgain (fun _ _ => DefinedAt.respelled) resolved) written

end Renaming

/-- Neither layout nor the case of letters carries meaning. A text whose comments are deleted, whose
    tabs are spaces, or in which each run of blanks and comments has become a line feed or a space
    is assembled to the same program, and so is the text in capitals where these keep its labels
    apart. -/
theorem assemble_rewritten {source : String} {program : List UInt8}
    (assembled : assemble source = .ok program) :
    assemble (String.ofList (withoutComments source.toList)) = .ok program ∧
      assemble (String.ofList (withoutTabs source.toList)) = .ok program ∧
        (∀ separator ∈ ['\n', ' '],
          assemble (String.ofList (condensed separator source.toList)) = .ok program) ∧
          ∀ items, parse source = .ok items → Distinct Char.toUpper items →
            assemble (respell Char.toUpper source) = .ok program := by
  obtain ⟨items, parsed, built⟩ := bind_eq_ok_iff.mp assembled
  have again {text : List Char}
      (same : inked false (roles false text) = inked false (roles false source.toList)) :
      assemble (String.ofList text) = .ok program := by
    have spelled : (String.ofList text).toList = text := String.toList_ofList
    rw [← spelled] at same
    exact bind_eq_ok_iff.mpr ⟨items, parse_of_inked same parsed, built⟩
  refine ⟨again (inked_uncommented false false _), again ((spaced_withoutTabs _).inked false false),
    fun separator listed => again ?_, fun others parsedToo apart => ?_⟩
  · have blank : isBlank separator = true := by
      simp only [List.mem_cons, List.not_mem_nil, or_false] at listed
      rcases listed with rfl | rfl <;> rfl
    exact inked_condensedFrom blank false (fun begun => begun) _
  · cases parsed.symm.trans parsedToo
    exact bind_eq_ok_iff.mpr ⟨_, parse_upper parsed, assembleItems_respelled apart built⟩

/-- Comments stand between a mnemonic and its operand and at the ends of lines. -/
theorem assemble_rewritten_loop :
    let source := "ld v1,\t0x2a ; answer\nJP // on\nloop\nloop: DB 1"
    let program : List UInt8 := [0x61, 0x2A, 0x12, 0x04, 1]
    assemble source = .ok program ∧
      assemble "ld v1,\t0x2a \nJP \nloop\nloop: DB 1" = .ok program ∧
      assemble "ld\nv1,\n0x2a\nJP\nloop\nloop:\nDB\n1" = .ok program ∧
      assemble "LD V1,\t0X2A ; ANSWER\nJP // ON\nLOOP\nLOOP: DB 1" = .ok program := by
  intro source program
  have assembled : assemble source = .ok program := by decide +kernel
  obtain ⟨bare, _, dense, capitals⟩ := assemble_rewritten assembled
  have parsed : parse source = .ok [.instruction (.immediate .load) [.number 1, .number 0x2A],
      .instruction (.address .jump) [.label "loop"], .label "loop", .bytes [1]] := by
    decide +kernel
  have capital := capitals _ parsed (by simp [Distinct])
  have dense := dense '\n' (by simp)
  have bareText : String.ofList (withoutComments source.toList) =
      "ld v1,\t0x2a \nJP \nloop\nloop: DB 1" := by decide +kernel
  have denseText : String.ofList (condensed '\n' source.toList) =
      "ld\nv1,\n0x2a\nJP\nloop\nloop:\nDB\n1" := by decide +kernel
  have capitalText : respell Char.toUpper source =
      "LD V1,\t0X2A ; ANSWER\nJP // ON\nLOOP\nLOOP: DB 1" := by decide +kernel
  rw [bareText] at bare
  rw [denseText] at dense
  rw [capitalText] at capital
  exact ⟨assembled, bare, dense, capital⟩

end Chip8.Assembly
