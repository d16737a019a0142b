import Chip8.Proofs.Assembly.Diagnosis
import Chip8.Proofs.Assembly.Seam

namespace Chip8.Assembly

/-! Two texts one after the other, with a line feed between them: what they consist of, and what
    they are assembled to. -/

open Cursor

theorem expandTabs_lines (first second : List Char) (column : Nat) :
    Text.expandTabsFrom column (first ++ '\n' :: second) =
      Text.expandTabsFrom column first ++ '\n' :: Text.expandTabs second := by
  induction first generalizing column with
  | nil => rfl
  | cons character rest ih =>
      simp only [List.cons_append, Text.expandTabsFrom, ih]
      split
      · rw [List.append_assoc]
      · split <;> rfl

theorem parse_lines {first second : String} {items more : List Item}
    (parsed : parse first = .ok items) (parsedMore : parse second = .ok more) :
    parse (first ++ "\n" ++ second) = .ok (items ++ more) := by
  obtain ⟨middle, passed, reached⟩ := parse_eq_ok_iff.mp parsed
  obtain ⟨final, passedMore, finished⟩ := parse_eq_ok_iff.mp parsedMore
  generalize laterText : Text.expandTabs second.toList = later at passedMore
  have ended : final.ahead = none := ahead_of_end finished
  have noColon : (start later).ahead ≠ some ':' := passedMore.ahead_ne (by simp [ended]) (by decide)
  have noComma : (start later).ahead ≠ some ',' := passedMore.ahead_ne (by simp [ended]) (by decide)
  have front := passed.extended later reached noColon noComma
  have seam := skip_extended_end later reached
  have same : (start later).skip.rest = (middle.extended later).skip.rest := by
    rw [seam]
    exact skip_rest_congr rfl
  have apart : (start later).skip.last.any clingsToKeyword =
      (middle.extended later).skip.last.any clingsToKeyword := by
    have newline : (none : Option Char).any clingsToKeyword =
        (some '\n').any clingsToKeyword := by decide
    rw [seam]
    exact any_last_skipFrom clingsToKeyword newline false later
  obtain ⟨final, back, finished⟩ := passedMore.congr finished same apart
  have text : Text.expandTabs (first ++ "\n" ++ second).toList =
      Text.expandTabs first.toList ++ '\n' :: later := by
    rw [String.toList_append, String.toList_append, List.append_assoc, ← laterText]
    exact expandTabs_lines first.toList second.toList 0
  rw [parse_eq_ok_iff, text, List.map_append]
  exact ⟨final, front.append back, finished⟩

/-! The programs. What is written for an item depends on the layout only by the operands that the
    item uses. -/

def Command.respelled (spell : Char → Char) : Command → Command
  | .instruction opcode operands => .instruction opcode (operands.map (·.respelled spell))
  | .bytes values => .bytes values
  | .words values => .words (values.map (·.respelled spell))

theorem Item.command?_respelled (spell : Char → Char) (item : Item) :
    (item.respelled spell).command? = item.command?.map (·.respelled spell) := by
  cases item <;> rfl

variable {items more : List Item} {program further : List UInt8}

namespace Layout

variable {layout whole : Layout} {spell : Char → Char}

theorem commandBytes_respelled {item : Item} {command : Command} {chunk : List UInt8}
    (translated : item.command? = some command)
    (agree : ∀ operand ∈ item.uses, ∀ value,
      layout.resolve operand = .ok value → whole.resolve (operand.respelled spell) = .ok value)
    (written : layout.commandBytes command = .ok chunk) :
    whole.commandBytes (command.respelled spell) = .ok chunk := by
  cases item with
  | label name => cases translated
  | instruction opcode operands =>
      cases translated
      obtain ⟨values, evaluated, same⟩ := bind_eq_ok_iff.mp written
      obtain ⟨resolved, done, checked⟩ := bind_eq_ok_iff.mp evaluated
      have again : whole.operandValues opcode (operands.map (·.respelled spell)) = .ok values :=
        bind_eq_ok_iff.mpr ⟨resolved, mapM_map_agree agree done, checked⟩
      exact bind_eq_ok_iff.mpr ⟨values, again, same⟩
  | bytes values =>
      cases translated
      exact written
  | words operands =>
      cases translated
      obtain ⟨chunks, done, same⟩ := bind_eq_ok_iff.mp written
      refine bind_eq_ok_iff.mpr
        ⟨chunks, mapM_map_agree (fun operand member chunk here => ?_) done, same⟩
      obtain ⟨value, resolved, range, rfl⟩ := word_eq_ok_iff.mp here
      exact word_eq_ok_iff.mpr ⟨value, agree operand member value resolved, range, rfl⟩

theorem chunks_respelled {chunks : List (List UInt8)}
    (agree : ∀ item ∈ items, ∀ operand ∈ item.uses, ∀ value,
      layout.resolve operand = .ok value → whole.resolve (operand.respelled spell) = .ok value)
    (written : (items.filterMap Item.command?).mapM layout.commandBytes = .ok chunks) :
    ((items.map (·.respelled spell)).filterMap Item.command?).mapM whole.commandBytes =
      .ok chunks := by
  have commands : (items.map (·.respelled spell)).filterMap Item.command? =
      (items.filterMap Item.command?).map (·.respelled spell) := by
    rw [List.filterMap_map, List.map_filterMap]
    exact congrArg (List.filterMap · items) (funext (Item.command?_respelled spell))
  rw [commands]
  refine mapM_map_agree (fun command member chunk here => ?_) written
  obtain ⟨item, listed, translated⟩ := List.mem_filterMap.mp member
  exact commandBytes_respelled translated (agree item listed) here

theorem chunks_agree {chunks : List (List UInt8)}
    (agree : ∀ item ∈ items, ∀ operand ∈ item.uses, ∀ value,
      layout.resolve operand = .ok value → whole.resolve operand = .ok value)
    (written : (items.filterMap Item.command?).mapM layout.commandBytes = .ok chunks) :
    (items.filterMap Item.command?).mapM whole.commandBytes = .ok chunks := by
  have agree : ∀ item ∈ items, ∀ operand ∈ item.uses, ∀ value,
      layout.resolve operand = .ok value → whole.resolve (operand.respelled id) = .ok value := by
    simpa using agree
  have again := chunks_respelled agree written
  rwa [Item.map_respelled_id] at again

/-- Labels keep their addresses under their new names. -/
theorem LaysOut.resolve_respelled {others : List Item} {operand : Operand} {value : Int}
    (laid : layout.LaysOut items) (laidOthers : whole.LaysOut others)
    (kept : ∀ name address, DefinedAt items name address →
      DefinedAt others (respell spell name) address)
    (resolved : layout.resolve operand = .ok value) :
    whole.resolve (operand.respelled spell) = .ok value := by
  cases operand with
  | number written => exact resolved
  | label name =>
      rw [resolve] at resolved
      split at resolved
      · next address found =>
          cases resolved
          have defined := kept name address ((laid.labels name address).mp found)
          rw [Operand.respelled, resolve, (laidOthers.labels _ _).mpr defined]
      · cases resolved

theorem LaysOut.resolve_append {operand : Operand} {value : Int} (laid : layout.LaysOut items)
    (laidAll : whole.LaysOut (items ++ more)) (resolved : layout.resolve operand = .ok value) :
    whole.resolve operand = .ok value := by
  have kept (name : String) (address : Nat) (defined : DefinedAt items name address) :
      DefinedAt (items ++ more) (respell id name) address := by
    obtain ⟨before, after, rfl, rfl⟩ := defined
    exact ⟨before, after ++ more, by simp, rfl⟩
  have found := laid.resolve_respelled laidAll kept resolved
  rwa [Operand.respelled_id] at found

theorem emit_eq_ok_iff : layout.emit = .ok program ↔
    ∃ chunks, layout.commands.toList.mapM layout.commandBytes = .ok chunks ∧
      program = chunks.flatten := by
  rw [emit, bind_eq_ok_iff]
  simp only [Except.ok.injEq, eq_comm]

theorem exists_addAll_iff :
    (∃ layout, ({} : Layout).addAll items = (.ok (), layout)) ↔
      Faultless Item.LayoutFault items := by
  have failed (failure : Failure) : (({} : Layout).addAll items).1 = .error failure ↔
      ∃ reason, FirstFault Item.LayoutFault items reason ∧ failure = reason.raised :=
    laysOut_nil.addAll_eq_error_iff
  have sound : Faultless Item.LayoutFault items ↔
      ∀ failure, (({} : Layout).addAll items).1 ≠ .error failure := by
    simp only [ne_eq, failed, forall_not_told_iff, faultless_iff]
  rw [sound]
  cases ({} : Layout).addAll items with
  | mk outcome layout => cases outcome <;> simp

end Layout

theorem assembleItems_eq_ok_iff :
    assembleItems items = .ok program ↔
      ∃ layout, ({} : Layout).addAll items = (.ok (), layout) ∧ layout.emit = .ok program := by
  rw [assembleItems]
  cases ({} : Layout).addAll items with
  | mk outcome layout => cases outcome <;> simp

theorem prefix_of_append {whole : List UInt8} (assembled : assembleItems items = .ok program)
    (together : assembleItems (items ++ more) = .ok whole) : program <+: whole := by
  obtain ⟨layout, laid, emitted⟩ := assembleItems_eq_ok assembled
  obtain ⟨wide, laidAll, emittedAll⟩ := assembleItems_eq_ok together
  obtain ⟨chunks, written, rfl⟩ := Layout.emit_eq_ok_iff.mp emitted
  obtain ⟨all, writtenAll, rfl⟩ := Layout.emit_eq_ok_iff.mp emittedAll
  rw [laid.commands] at written
  rw [laidAll.commands, List.filterMap_append, List.mapM_append] at writtenAll
  obtain ⟨front, earlier, later⟩ := bind_eq_ok_iff.mp writtenAll
  obtain ⟨back, _, joined⟩ := bind_eq_ok_iff.mp later
  cases joined
  have same := Layout.chunks_agree
    (fun _ _ _ _ _ resolved => laid.resolve_append laidAll resolved) written
  cases earlier.symm.trans same
  rw [List.flatten_append]
  exact List.prefix_append _ _

theorem faultless_append (sound : Faultless Item.LayoutFault items)
    (soundMore : Faultless Item.LayoutFault more)
    (apart : ∀ name, .label name ∈ items → .label name ∉ more) :
    Faultless Item.LayoutFault (items ++ more) := by
  rw [faultless_layout_iff] at sound soundMore ⊢
  obtain ⟨labels, bytes⟩ := sound
  obtain ⟨labelsMore, bytesMore⟩ := soundMore
  refine ⟨fun name => ?_, fun values member => ?_⟩
  · rw [List.count_append]
    by_cases defined : .label name ∈ items
    · rw [List.count_eq_zero.mpr (apart name defined)]
      exact labels name
    · rw [List.count_eq_zero.mpr defined, Nat.zero_add]
      exact labelsMore name
  · exact (List.mem_append.mp member).elim (bytes values) (bytesMore values)

theorem assembleItems_append (assembled : assembleItems items = .ok program)
    (assembledMore : assembleItems more = .ok further)
    (unlabelled : ∀ item ∈ more, ∀ name, .label name ∉ item.uses)
    (apart : ∀ name, .label name ∈ items → .label name ∉ more) :
    assembleItems (items ++ more) = .ok (program ++ further) := by
  obtain ⟨layout, added, emitted⟩ := assembleItems_eq_ok_iff.mp assembled
  obtain ⟨layoutMore, addedMore, emittedMore⟩ := assembleItems_eq_ok_iff.mp assembledMore
  obtain ⟨wide, addedAll⟩ := Layout.exists_addAll_iff.mpr (faultless_append
    (Layout.exists_addAll_iff.mp ⟨layout, added⟩)
    (Layout.exists_addAll_iff.mp ⟨layoutMore, addedMore⟩) apart)
  have laid : layout.LaysOut items := Layout.laysOut_nil.addAll added
  have laidMore : layoutMore.LaysOut more := Layout.laysOut_nil.addAll addedMore
  have laidAll : wide.LaysOut (items ++ more) := Layout.laysOut_nil.addAll addedAll
  obtain ⟨chunks, written, rfl⟩ := Layout.emit_eq_ok_iff.mp emitted
  obtain ⟨chunksMore, writtenMore, rfl⟩ := Layout.emit_eq_ok_iff.mp emittedMore
  rw [laid.commands] at written
  rw [laidMore.commands] at writtenMore
  have front := Layout.chunks_agree
    (fun _ _ _ _ _ resolved => laid.resolve_append laidAll resolved) written
  have numbers (item : Item) (listed : item ∈ more) (operand : Operand)
      (used : operand ∈ item.uses) (value : Int)
      (resolved : layoutMore.resolve operand = .ok value) : wide.resolve operand = .ok value := by
    cases operand with
    | number written => exact resolved
    | label name => exact absurd used (unlabelled item listed name)
  have back := Layout.chunks_agree numbers writtenMore
  refine assembleItems_eq_ok_iff.mpr ⟨wide, addedAll, Layout.emit_eq_ok_iff.mpr ?_⟩
  refine ⟨chunks ++ chunksMore, ?_, List.flatten_append.symm⟩
  rw [laidAll.commands, List.filterMap_append, List.mapM_append, front, bind_eq_ok_iff]
  exact ⟨chunks, rfl, bind_eq_ok_iff.mpr ⟨chunksMore, back, rfl⟩⟩

/-- A text that goes on in a new line with a second text has the items of both. Its program begins
    with that of the first text, and where the second text neither uses labels nor defines those of
    the first, it is the one program followed by the other. -/
theorem assemble_lines {first second : String} (parsed : parse first = .ok items)
    (parsedMore : parse second = .ok more) :
    parse (first ++ "\n" ++ second) = .ok (items ++ more) ∧
      (∀ program whole, assemble first = .ok program →
        assemble (first ++ "\n" ++ second) = .ok whole → program <+: whole) ∧
        ∀ program further, assemble first = .ok program → assemble second = .ok further →
          (∀ item ∈ more, ∀ name, .label name ∉ item.uses) →
            (∀ name, .label name ∈ items → .label name ∉ more) →
              assemble (first ++ "\n" ++ second) = .ok (program ++ further) := by
  have together := parse_lines parsed parsedMore
  rw [assemble_of_parse parsed, assemble_of_parse parsedMore, assemble_of_parse together]
  refine ⟨together, fun program whole => prefix_of_append, fun program further => ?_⟩
  exact assembleItems_append

/-- The first text ends in a comment and in an instruction that might go on, and the second begins
    with a label. -/
theorem assemble_lines_shift :
    assemble "a: JP a\nSHR V1 ; the end" = .ok [0x12, 0x00, 0x81, 0x06] ∧
      assemble "V2:\tDB 7" = .ok [7] ∧
      assemble "a: JP a\nSHR V1 ; the end\nV2:\tDB 7" = .ok [0x12, 0x00, 0x81, 0x06, 7] := by
  have assembled : assemble "a: JP a\nSHR V1 ; the end" = .ok [0x12, 0x00, 0x81, 0x06] := by
    decide +kernel
  have assembledMore : assemble "V2:\tDB 7" = .ok [7] := by decide +kernel
  have parsed : parse "a: JP a\nSHR V1 ; the end" =
      .ok [.label "a", .instruction (.address .jump) [.label "a"],
        .instruction (.pair .shiftRight) [.number 1, .number 0]] := by decide +kernel
  have parsedMore : parse "V2:\tDB 7" = .ok [.label "V2", .bytes [7]] := by decide +kernel
  refine ⟨assembled, assembledMore, ?_⟩
  exact (assemble_lines parsed parsedMore).2.2 _ _ assembled assembledMore
    (by simp [Item.uses]) (by simp)

end Chip8.Assembly
