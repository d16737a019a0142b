import Chip8.Proofs.Assembly.Image
import Chip8.Proofs.Assembly.Passage
import Chip8.Proofs.Assembly.Spelling

namespace Chip8.Assembly

/-! Printed programs are assembled back to the words that were printed, however the lines are laid
    out. A word that is no instruction is printed as a text that is no item. -/

/-- Blanks and whole comments, at least one of them. -/
inductive Gap : List Char → Prop
  | blank (character : Char) (blank : Cursor.isBlank character = true) : Gap [character]
  | comment (mark body : List Char) (marks : mark = [';'] ∨ mark = ['/', '/'])
      (oneLine : '\n' ∉ body) : Gap (mark ++ body ++ ['\n'])
  | append {first second : List Char} (before : Gap first) (after : Gap second) :
      Gap (first ++ second)

/-- How a word is written on its line. -/
inductive Spells (word : UInt16) : List Char → Prop
  | mnemonic (known : (Instruction.decode word.toNat).opcode?.isSome = true) :
      Spells word (Instruction.decode word.toNat).text.toList
  | digits {text : List Char} (unknown : (Instruction.decode word.toNat).opcode? = none)
      (four : text.length = 4) (spelled : Numeral.IsNumeral 16 word.toNat text) :
      Spells word ("DW 0x".toList ++ text)

/-- Lines for the words in order, with a gap behind each of them. -/
inductive Lines : List UInt16 → List Char → Prop
  | nothing : Lines [] []
  | line {word : UInt16} {words : List UInt16} {line gap text : List Char}
      (spelled : Spells word line) (apart : Gap gap) (further : Lines words text) :
      Lines (word :: words) (line ++ gap ++ text)

/-- The same with a gap only between any two lines. -/
inductive Written : List UInt16 → List Char → Prop
  | nothing : Written [] []
  | lines {before : List UInt16} {word : UInt16} {front line : List Char}
      (further : Lines before front) (spelled : Spells word line) :
      Written (before ++ [word]) (front ++ line)

def bigEndian (word : UInt16) : List UInt8 :=
  [(word >>> 8).toUInt8, word.toUInt8]

namespace Cursor

theorem skipFrom_comment (last : Option Char) (body rest : List Char) (oneLine : '\n' ∉ body) :
    skipFrom true last (body ++ '\n' :: rest) = skip ⟨some '\n', rest⟩ := by
  induction body generalizing last with
  | nil => rfl
  | cons character body ih =>
      have inside : character ≠ '\n' := fun same => oneLine (by simp [same])
      rw [List.cons_append, skipFrom]
      simp only [Bool.true_and, bne_iff_ne, ne_eq, inside, not_false_eq_true, if_true]
      exact ih _ (fun member => oneLine (List.mem_cons_of_mem _ member))

/-- After a gap the place before is a blank, whatever came before the gap. -/
theorem skip_gap {gap : List Char} (apart : Gap gap) :
    ∃ blank, isBlank blank = true ∧
      ∀ last rest, skip ⟨last, gap ++ rest⟩ = skip ⟨some blank, rest⟩ := by
  induction apart with
  | blank character blank => exact ⟨character, blank, fun last rest => skip_of_blank blank⟩
  | comment mark body marks oneLine =>
      refine ⟨'\n', rfl, fun last rest => ?_⟩
      rw [List.append_assoc, List.append_assoc, List.singleton_append]
      rcases marks with rfl | rfl
      · exact skipFrom_comment (some ';') body rest oneLine
      · have inside : '\n' ∉ '/' :: body := by simpa using oneLine
        exact skipFrom_comment (some '/') ('/' :: body) rest inside
  | append before after firstIh secondIh =>
      obtain ⟨_, _, skipFirst⟩ := firstIh
      obtain ⟨blank, isBlank, skipSecond⟩ := secondIh
      exact ⟨blank, isBlank, fun last rest => by rw [List.append_assoc, skipFirst, skipSecond]⟩

theorem stops_gap {gap : List Char} (apart : Gap gap) (rest : List Char) : Stops (gap ++ rest) := by
  induction apart generalizing rest with
  | blank character blank => simp [Stops, isBreak, isInk, blank]
  | comment mark body marks oneLine =>
      rcases marks with rfl | rfl <;> rfl
  | append before _ ih _ =>
      rw [List.append_assoc]
      exact ih _

/-! The characters of a line. -/

/-- A character that tab expansion leaves alone and that ends no line. -/
def isLineCharacter (character : Char) : Bool :=
  character == ' ' || isInk character

def IsLine (line : List Char) : Prop :=
  ∀ character ∈ line, isLineCharacter character = true

theorem IsLine.tabless {line : List Char} (isLine : IsLine line) : '\t' ∉ line :=
  fun member => absurd (isLine '\t' member) (by decide)

theorem IsLine.single {line : List Char} (isLine : IsLine line) : '\n' ∉ line :=
  fun member => absurd (isLine '\n' member) (by decide)

theorem isLine_append {first second : List Char} (front : IsLine first) (back : IsLine second) :
    IsLine (first ++ second) :=
  List.forall_mem_append.mpr ⟨front, back⟩

theorem IsSlotText.isLine {text : List Char} (isText : IsSlotText text) : IsLine text := by
  intro character member
  rw [isLineCharacter, isInk_of_isSlotCharacter (isText.2 character member), Bool.or_true]

theorem isLine_mnemonic (opcode : Opcode) : IsLine opcode.form.mnemonic.toList := by
  have checked : opcode.form.mnemonic.toList.all isLineCharacter = true := by
    cases opcode with
    | draw => decide
    | _ op => cases op <;> decide
  exact List.all_eq_true.mp checked

theorem isLine_furtherTexts {texts : List String}
    (areTexts : ∀ text ∈ texts, IsSlotText text.toList) : IsLine (furtherTexts texts) := by
  induction texts with
  | nil => exact fun _ member => absurd member List.not_mem_nil
  | cons text texts ih =>
      obtain ⟨isText, areTexts⟩ := List.forall_mem_cons.mp areTexts
      have separator : IsLine [',', ' '] := List.all_eq_true.mp (by decide)
      exact isLine_append (isLine_append separator isText.isLine) (ih areTexts)

theorem isLine_slots {texts : List String} (areTexts : ∀ text ∈ texts, IsSlotText text.toList) :
    IsLine (", ".intercalate texts).toList := by
  cases texts with
  | nil => exact fun _ member => absurd member List.not_mem_nil
  | cons text texts =>
      obtain ⟨isText, areTexts⟩ := List.forall_mem_cons.mp areTexts
      rw [toList_slots]
      exact isLine_append isText.isLine (isLine_furtherTexts areTexts)

/-- A mnemonic and texts for its slots. -/
theorem isLine_command {mnemonic : List Char} {texts : List String} (isLine : IsLine mnemonic)
    (areTexts : ∀ text ∈ texts, IsSlotText text.toList) :
    IsLine (mnemonic ++ ' ' :: (", ".intercalate texts).toList) := by
  have separator : IsLine [' '] := List.all_eq_true.mp (by decide)
  exact isLine_append isLine (isLine_append separator (isLine_slots areTexts))

theorem isLine_text {opcode : Opcode} {operands : List Int} (admitted : opcode.Admits operands) :
    IsLine (opcode.text operands).toList := by
  have filled := fillsAll_form admitted
  have mnemonic := isLine_mnemonic opcode
  cases printed : slotTexts opcode.form.slots operands with
  | nil => rwa [text_of_nil printed]
  | cons text texts =>
      rw [printed] at filled
      rw [text_of_cons printed]
      exact isLine_command mnemonic filled.takesAll.areTexts

end Cursor

open Cursor

theorem text_begins (opcode : Opcode) (operands : List Int) :
    ∃ tail, (opcode.text operands).toList = opcode.form.mnemonic.toList ++ tail := by
  cases printed : slotTexts opcode.form.slots operands with
  | nil => exact ⟨[], by rw [text_of_nil printed, List.append_nil]⟩
  | cons text texts => exact ⟨_, text_of_cons printed⟩

theorem text_of_known {word : Int} {opcode : Opcode}
    (known : (Instruction.decode word).opcode? = some opcode) :
    (Instruction.decode word).text = opcode.text (opcode.read word) := by
  have found := Instruction.opcode?_decode_eq_some_iff.mp known
  rw [Instruction.text_of_opcode? known, Instruction.decode_of_matches found,
    Opcode.operands_instruction]

theorem text_of_unknown {word : Nat} (unknown : (Instruction.decode word).opcode? = none) :
    (Instruction.decode word).text.toList =
      "INVALID 0x".toList ++ (Numeral.hex 4 word).toList := by
  rw [Instruction.decode_of_opcode?_eq_none unknown]
  exact String.toList_append

theorem isLine_printed (word : Nat) : IsLine (Instruction.decode word).text.toList := by
  cases known : (Instruction.decode word).opcode? with
  | some opcode =>
      rw [text_of_known known]
      exact isLine_text (opcode.admits_read word)
  | none =>
      rw [text_of_unknown known]
      exact isLine_append (List.all_eq_true.mp (by decide))
        (IsSlotText.of_numeral (hex_isNumeral 4 word)).isLine

theorem Spells.isLine {word : UInt16} {line : List Char} (spelled : Spells word line) :
    IsLine line := by
  cases spelled with
  | mnemonic _ => exact isLine_printed word.toNat
  | digits _ _ spelled =>
      exact isLine_append (List.all_eq_true.mp (by decide)) (IsSlotText.of_numeral spelled).isLine

theorem mnemonic_opens (opcode : Opcode) : ∃ first more,
    opcode.form.mnemonic.toList = first :: more ∧ isSlotCharacter first = true := by
  cases opcode with
  | draw => exact ⟨_, _, rfl, by decide⟩
  | _ op => cases op <;> exact ⟨_, _, rfl, by decide⟩

theorem Spells.opens {word : UInt16} {line : List Char} (spelled : Spells word line) :
    ∃ first more, line = first :: more ∧ isSlotCharacter first = true := by
  cases spelled with
  | mnemonic known =>
      obtain ⟨opcode, known⟩ := Option.isSome_iff_exists.mp known
      obtain ⟨tail, begins⟩ := text_begins opcode (opcode.read word.toNat)
      obtain ⟨first, more, spelled, part⟩ := mnemonic_opens opcode
      exact ⟨first, more ++ tail, by rw [text_of_known known, begins, spelled]; rfl, part⟩
  | digits => exact ⟨_, _, rfl, by decide⟩

theorem Lines.opens {words : List UInt16} {text rest : List Char} (lines : Lines words text)
    (opens : ∃ first more, rest = first :: more ∧ isSlotCharacter first = true) :
    ∃ first more, text ++ rest = first :: more ∧ isSlotCharacter first = true := by
  cases lines with
  | nothing => exact opens
  | line spelled _ _ =>
      obtain ⟨first, more, rfl, part⟩ := spelled.opens
      exact ⟨first, _, rfl, part⟩

/-! From lines to items. -/

/-- The item that a word's line is read as. -/
def wordItem (word : UInt16) : Item :=
  match (Instruction.decode word.toNat).opcode? with
  | some opcode => .instruction opcode ((opcode.read word.toNat).map .number)
  | none => .words [.number word.toNat]

theorem item_of_line {word : UInt16} {line rest : List Char} {cursor : Cursor}
    {last : Option Char} (spelled : Spells word line)
    (here : cursor.skip = ⟨last, line ++ rest⟩) (apart : last.any clingsToKeyword = false)
    (follows : Follows rest) :
    ∃ final, cursor.item Production.all = some (.ok (wordItem word), ⟨final, rest⟩) := by
  cases spelled with
  | mnemonic known =>
      obtain ⟨opcode, known⟩ := Option.isSome_iff_exists.mp known
      rw [text_of_known known] at here
      rw [wordItem, known]
      exact item_of_text (opcode.admits_read word.toNat) here apart follows
  | digits unknown _ spelled =>
      rw [wordItem, unknown]
      exact item_of_word spelled here apart follows

theorem skip_of_opens {text : List Char}
    (opens : ∃ first more, text = first :: more ∧ isSlotCharacter first = true)
    (last : Option Char) : skip ⟨last, text⟩ = ⟨last, text⟩ := by
  obtain ⟨first, more, rfl, part⟩ := opens
  exact skip_of_isSlotCharacter part

theorem follows_gap {gap text : List Char} (apart : Gap gap)
    (opens : ∃ first more, text = first :: more ∧ isSlotCharacter first = true) :
    Follows (gap ++ text) := by
  obtain ⟨blank, _, skipped⟩ := skip_gap apart
  refine ⟨stops_gap apart text, ?_⟩
  intro character here
  rw [ahead, skipped, skip_of_opens opens] at here
  obtain ⟨first, more, rfl, part⟩ := opens
  cases here
  exact part

theorem follows_nil : Follows [] :=
  ⟨rfl, fun _ here => by cases here⟩

/-- Lines are read one item at a time, up to where the text goes on behind the last gap. -/
theorem passes_lines {words : List UInt16} {text rest : List Char} {cursor : Cursor}
    {last : Option Char} (lines : Lines words text)
    (here : cursor.skip = ⟨last, text ++ rest⟩) (apart : last.any clingsToKeyword = false)
    (opens : ∃ first more, rest = first :: more ∧ isSlotCharacter first = true) :
    ∃ final before, Passes Production.all cursor ((words.map wordItem).map .ok) final ∧
      final.skip = ⟨before, rest⟩ ∧ before.any clingsToKeyword = false := by
  induction lines generalizing cursor last with
  | nothing => exact ⟨cursor, last, .stay cursor, here, apart⟩
  | @line word words line gap text spelled gapped further ih =>
      have furtherOpens := further.opens opens
      rw [List.append_assoc, List.append_assoc] at here
      obtain ⟨afterLine, read⟩ := item_of_line spelled here apart (follows_gap gapped furtherOpens)
      obtain ⟨blank, isBlank, skipped⟩ := skip_gap gapped
      have nextHere : (⟨afterLine, gap ++ (text ++ rest)⟩ : Cursor).skip =
          ⟨some blank, text ++ rest⟩ := by
        rw [skipped, skip_of_opens furtherOpens]
      have blankApart : (some blank).any clingsToKeyword = false :=
        (stops_gap (.blank blank isBlank) []).any_eq_false (by decide)
      obtain ⟨final, before, passed, finalHere, finalApart⟩ := ih nextHere blankApart
      exact ⟨final, before, .item read passed, finalHere, finalApart⟩

/-! Tabs become blanks, so that gaps stay gaps and lines stay as they are. -/

theorem expandTabsFrom_tabless {text : List Char} (tabless : '\t' ∉ text) (column : Nat) :
    ∃ after, ∀ rest, Text.expandTabsFrom column (text ++ rest) =
      text ++ Text.expandTabsFrom after rest := by
  induction text generalizing column with
  | nil => exact ⟨column, fun _ => rfl⟩
  | cons character text ih =>
      obtain ⟨notTab, further⟩ := not_or.mp (mt List.mem_cons.mpr tabless)
      by_cases ends : character = '\n' ∨ character = '\r'
      · obtain ⟨after, whole⟩ := ih further 0
        refine ⟨after, fun rest => ?_⟩
        rw [List.cons_append, Text.expandTabsFrom, if_neg (Ne.symm notTab), if_pos ends, whole,
          List.cons_append]
      · obtain ⟨after, whole⟩ := ih further (column + 1)
        refine ⟨after, fun rest => ?_⟩
        rw [List.cons_append, Text.expandTabsFrom, if_neg (Ne.symm notTab), if_neg ends, whole,
          List.cons_append]

theorem expandTabs_tabless {text : List Char} (tabless : '\t' ∉ text) :
    Text.expandTabs text = text := by
  obtain ⟨after, whole⟩ := expandTabsFrom_tabless tabless 0
  have kept := whole []
  rwa [List.append_nil, Text.expandTabsFrom, List.append_nil] at kept

theorem gap_blanks (count : Nat) : Gap (List.replicate (count + 1) ' ') := by
  induction count with
  | zero => exact .blank ' ' rfl
  | succ count ih => exact .append (.blank ' ' rfl) ih

/-- The tail of a comment after expansion, up to the end of its line. -/
theorem expandTabsFrom_comment {body : List Char} (oneLine : '\n' ∉ body) (column : Nat)
    (rest : List Char) :
    ∃ expanded, '\n' ∉ expanded ∧ Text.expandTabsFrom column (body ++ '\n' :: rest) =
      expanded ++ '\n' :: Text.expandTabsFrom 0 rest := by
  induction body generalizing column with
  | nil => exact ⟨[], List.not_mem_nil, rfl⟩
  | cons character body ih =>
      obtain ⟨inside, further⟩ := not_or.mp (mt List.mem_cons.mpr oneLine)
      rw [List.cons_append, Text.expandTabsFrom]
      split
      · obtain ⟨expanded, expandedLine, whole⟩ := ih further (column + (8 - column % 8))
        refine ⟨List.replicate (8 - column % 8) ' ' ++ expanded, ?_, ?_⟩
        · simp [expandedLine]
        · simp only [whole, List.append_assoc]
      · split
        · obtain ⟨expanded, expandedLine, whole⟩ := ih further 0
          exact ⟨character :: expanded, by simp [inside, expandedLine], by rw [whole]; rfl⟩
        · obtain ⟨expanded, expandedLine, whole⟩ := ih further (column + 1)
          exact ⟨character :: expanded, by simp [inside, expandedLine], by rw [whole]; rfl⟩

theorem expandTabsFrom_gap {gap : List Char} (apart : Gap gap) (column : Nat) (rest : List Char) :
    ∃ expanded after, Gap expanded ∧
      Text.expandTabsFrom column (gap ++ rest) = expanded ++ Text.expandTabsFrom after rest := by
  induction apart generalizing column rest with
  | blank character blank =>
      rw [List.singleton_append, Text.expandTabsFrom]
      split
      · have width : 8 - column % 8 = 7 - column % 8 + 1 := by omega
        refine ⟨_, _, ?_, rfl⟩
        rw [width]
        exact gap_blanks _
      · split
        · exact ⟨[character], _, .blank character blank, rfl⟩
        · exact ⟨[character], _, .blank character blank, rfl⟩
  | comment mark body marks oneLine =>
      have tabless : '\t' ∉ mark := by
        rcases marks with rfl | rfl <;> decide
      obtain ⟨after, marked⟩ := expandTabsFrom_tabless tabless column
      obtain ⟨expanded, expandedLine, whole⟩ := expandTabsFrom_comment oneLine after rest
      refine ⟨mark ++ expanded ++ ['\n'], 0, .comment mark expanded marks expandedLine, ?_⟩
      rw [List.append_assoc, List.append_assoc, List.singleton_append, marked, whole]
      simp
  | append _ _ firstIh secondIh =>
      rw [List.append_assoc]
      obtain ⟨front, middle, frontGap, first⟩ := firstIh column _
      obtain ⟨back, after, backGap, second⟩ := secondIh middle rest
      exact ⟨front ++ back, after, .append frontGap backGap, by
        rw [first, second, List.append_assoc]⟩

theorem expandTabsFrom_lines {words : List UInt16} {text : List Char}
    (lines : Lines words text) (column : Nat) (rest : List Char) :
    ∃ expanded after, Lines words expanded ∧
      Text.expandTabsFrom column (text ++ rest) = expanded ++ Text.expandTabsFrom after rest := by
  induction lines generalizing column with
  | nothing => exact ⟨[], column, .nothing, rfl⟩
  | @line word words line gap text spelled apart further ih =>
      obtain ⟨afterLine, lineWhole⟩ := expandTabsFrom_tabless spelled.isLine.tabless column
      obtain ⟨expandedGap, afterGap, isGap, gapWhole⟩ :=
        expandTabsFrom_gap apart afterLine (text ++ rest)
      obtain ⟨expanded, after, expandedLines, whole⟩ := ih afterGap
      refine ⟨line ++ expandedGap ++ expanded, after, .line spelled isGap expandedLines, ?_⟩
      rw [List.append_assoc, List.append_assoc, lineWhole, gapWhole, whole, List.append_assoc,
        List.append_assoc]

theorem expandTabs_written {words : List UInt16} {text : List Char} (written : Written words text) :
    Written words (Text.expandTabs text) := by
  cases written with
  | nothing => exact .nothing
  | @lines before word front line further spelled =>
      obtain ⟨expanded, after, expandedLines, whole⟩ := expandTabsFrom_lines further 0 line
      obtain ⟨_, lineWhole⟩ := expandTabsFrom_tabless spelled.isLine.tabless after
      have kept := lineWhole []
      rw [List.append_nil, Text.expandTabsFrom, List.append_nil] at kept
      rw [Text.expandTabs, whole, kept]
      exact .lines expandedLines spelled

/-! From items to bytes. -/

theorem wordBytes_toNat (word : UInt16) : Layout.wordBytes word.toNat = bigEndian word := by
  have high := toNat_ofInt ((word.toNat : Int) / 0x100)
  have low := toNat_ofInt word.toNat
  have bounded := word.toNat_lt
  have shifted : (word >>> 8).toUInt8.toNat = word.toNat / 0x100 % 0x100 := by
    rw [UInt16.toNat_toUInt8, UInt16.toNat_shiftRight, Nat.shiftRight_eq_div_pow]
    rfl
  rw [Layout.wordBytes, bigEndian, List.cons.injEq, List.cons.injEq, ← UInt8.toNat_inj,
    ← UInt8.toNat_inj, shifted, UInt16.toNat_toUInt8]
  refine ⟨?_, ?_, rfl⟩ <;> omega

theorem addAll_words (layout : Layout) (words : List UInt16) :
    ∃ final, layout.addAll (words.map wordItem) = (.ok (), final) := by
  induction words generalizing layout with
  | nil => exact ⟨layout, rfl⟩
  | cons word words ih =>
      have added : ∃ next, layout.add (wordItem word) = .ok next := by
        unfold wordItem
        split
        · exact ⟨_, rfl⟩
        · exact ⟨_, rfl⟩
      obtain ⟨next, added⟩ := added
      obtain ⟨final, further⟩ := ih next
      exact ⟨final, by rw [List.map_cons, Layout.addAll, added]; exact further⟩

theorem mapM_resolve_numbers (layout : Layout) (values : List Int) :
    (values.map Operand.number).mapM layout.resolve = .ok values := by
  rw [mapM_eq_ok_iff, List.forall₂_map_left_iff]
  exact List.forall₂_same.mpr fun _ _ => rfl

theorem checkOperands_of_admits {opcode : Opcode} {values : List Int}
    (admitted : opcode.Admits values) : Layout.checkOperands opcode values = .ok () := by
  obtain ⟨sameLength, within⟩ := List.forall₂_iff_zip.mp admitted
  have absent : (opcode.fields.zip values).find? (fun entry => ¬ entry.1.Admits entry.2) = none := by
    rw [List.find?_eq_none]
    intro entry member
    simpa using within member
  rw [Layout.checkOperands, absent]
  exact if_pos sameLength.symm

theorem commandBytes_word (layout : Layout) (word : UInt16) :
    ∃ command, (wordItem word).command? = some command ∧
      layout.commandBytes command = .ok (bigEndian word) := by
  have bounded := word.toNat_lt
  rw [wordItem, ← wordBytes_toNat]
  cases known : (Instruction.decode word.toNat).opcode? with
  | some opcode =>
      have found := Instruction.opcode?_decode_eq_some_iff.mp known
      have encoded : opcode.encode (opcode.read word.toNat) = word.toNat := by
        rw [Opcode.encode_read found]
        omega
      refine ⟨_, rfl, bind_eq_ok_iff.mpr ⟨opcode.read word.toNat, ?_, by rw [encoded]⟩⟩
      have checked := checkOperands_of_admits (opcode.admits_read word.toNat)
      exact bind_eq_ok_iff.mpr
        ⟨_, mapM_resolve_numbers layout _, bind_eq_ok_iff.mpr ⟨(), checked, rfl⟩⟩
  | none =>
      have written : layout.word (.number word.toNat) = .ok (Layout.wordBytes word.toNat) :=
        Layout.word_eq_ok_iff.mpr ⟨word.toNat, rfl, by omega, rfl⟩
      refine ⟨_, rfl, bind_eq_ok_iff.mpr ⟨[Layout.wordBytes word.toNat], ?_, ?_⟩⟩
      · exact mapM_eq_ok_iff.mpr (.cons written .nil)
      · simp

theorem assembleItems_words (words : List UInt16) :
    assembleItems (words.map wordItem) = .ok (words.flatMap bigEndian) := by
  obtain ⟨layout, added⟩ := addAll_words {} words
  have laid : layout.LaysOut (words.map wordItem) := Layout.laysOut_nil.addAll added
  simp only [assembleItems, added]
  refine bind_eq_ok_iff.mpr ⟨words.map bigEndian, ?_, by rw [← List.flatMap_def]⟩
  rw [laid.commands, mapM_eq_ok_iff]
  clear added laid
  induction words with
  | nil => exact .nil
  | cons word words ih =>
      obtain ⟨command, translated, written⟩ := commandBytes_word layout word
      rw [List.map_cons, List.filterMap_cons_some translated, List.map_cons]
      exact .cons written ih

theorem parse_written {words : List UInt16} {text : List Char} (written : Written words text) :
    parse (String.ofList text) = .ok (words.map wordItem) := by
  rw [parse_eq_ok_iff, String.toList_ofList]
  have expanded := expandTabs_written written
  generalize Text.expandTabs text = plain at expanded
  cases expanded with
  | nothing => exact ⟨start [], .stay _, rfl⟩
  | @lines before word front line further spelled =>
      have opens := spelled.opens
      have here : (start (front ++ line)).skip = ⟨none, front ++ line⟩ :=
        skip_of_opens (further.opens opens) none
      obtain ⟨middle, last, passed, middleHere, apart⟩ := passes_lines further here rfl opens
      rw [← List.append_nil line] at middleHere
      obtain ⟨final, read⟩ := item_of_line spelled middleHere apart follows_nil
      refine ⟨⟨final, []⟩, ?_, rfl⟩
      rw [List.map_append, List.map_append]
      exact passed.append (.item read (.stay _))

theorem assemble_of_written {words : List UInt16} {text : List Char}
    (written : Written words text) :
    assemble (String.ofList text) = .ok (words.flatMap bigEndian) := by
  rw [assemble, parse_written written]
  exact assembleItems_words words

/-! A word without an operation, printed all the same. -/

theorem item_of_unknown {cursor : Cursor} {last : Option Char} {rest : List Char}
    (here : cursor.skip = ⟨last, "INVALID 0".toList ++ rest⟩) :
    cursor.item Production.all = none := by
  rw [item, Option.or_eq_none_iff]
  refine ⟨?_, ?_⟩
  · have named : name cursor = some ("INVALID", ⟨some 'D', ' ' :: '0' :: rest⟩) := by
      rw [name_eq_some_iff, here]
      exact ⟨'I', "NVALID".toList, rfl, rfl, List.all_eq_true.mp (by decide), rfl, by decide, rfl⟩
    have noColon : symbol ':' ⟨some 'D', ' ' :: '0' :: rest⟩ = none := rfl
    simp [label, named, noColon]
  · have elsewhere : ∀ production ∈ Production.all,
        production.mnemonic.toList.take 1 ≠ [] ∧ 'I' ∉ production.mnemonic.toList.take 1 := by
      decide
    rw [List.findSome?_eq_none_iff]
    intro production listed
    rw [Option.eq_none_iff_forall_ne_some]
    intro found read
    obtain ⟨nonempty, other⟩ := elsewhere production listed
    obtain ⟨_, keyword⟩ := Production.keyword_of_read read
    obtain ⟨character, ahead_, opens⟩ := keyword_opens keyword nonempty
    rw [ahead, here] at ahead_
    cases ahead_
    exact other opens

theorem malformedAt_line {front line tail : List Char} (single : '\n' ∉ line)
    (starts : front = [] ∨ ∃ before, front = before ++ ['\n'])
    (ends : tail = [] ∨ ∃ after, tail = '\n' :: after) (trimmed : Text.trim line = line) :
    malformedAt (front ++ (line ++ tail)) front.length =
      .malformed (front.count '\n' + 1) 1 (String.ofList line) := by
  have begins : Text.lineStart (front ++ (line ++ tail)) front.length = [] := by
    rw [Text.lineStart, List.take_left]
    rcases starts with rfl | ⟨before, rfl⟩
    · rfl
    · simp
  have stops : (line ++ tail).takeWhile (· != '\n') = line := by
    rw [List.takeWhile_append_of_pos (fun character member => ?_)]
    · rcases ends with rfl | ⟨after, rfl⟩
      · exact List.append_nil line
      · exact List.append_nil line
    · rw [bne_iff_ne]
      intro same
      exact single (same ▸ member)
  rw [malformedAt, Text.lineNumber, Text.columnNumber, Text.lineAround, begins, List.take_left,
    List.drop_left, stops, List.nil_append, trimmed]
  rfl

theorem trim_unknown {value : Nat} {digits : List Char}
    (spelled : Numeral.IsNumeral 16 value digits) :
    Text.trim ("INVALID 0x".toList ++ digits) = "INVALID 0x".toList ++ digits := by
  obtain ⟨front, last, rfl⟩ := List.eq_nil_or_concat digits |>.resolve_left spelled.nonempty
  have digit := spelled.digits last (by simp)
  have notSpace : Text.isSpace last = false :=
    forall_ascii (fun character => isDigitOf 16 character = true → Text.isSpace character = false)
      (by decide) last (isDigitOf_ascii digit) digit
  have opening : Text.isSpace 'I' = false := by decide
  simp [Text.trim, Text.trimmed, opening, notSpace]

/-- The lines of known words, with a line feed behind each. -/
def knownLines (words : List UInt16) : List Char :=
  words.flatMap fun word => (Instruction.decode word.toNat).text.toList ++ ['\n']

theorem lines_knownLines {words : List UInt16}
    (known : ∀ word ∈ words, (Instruction.decode word.toNat).opcode?.isSome = true) :
    Lines words (knownLines words) := by
  induction words with
  | nil => exact .nothing
  | cons word words ih =>
      obtain ⟨here, further⟩ := List.forall_mem_cons.mp known
      exact .line (.mnemonic here) (.blank '\n' rfl) (ih further)

theorem count_knownLines (words : List UInt16) : (knownLines words).count '\n' = words.length := by
  induction words with
  | nil => rfl
  | cons word words ih =>
      have single := (isLine_printed word.toNat).single
      rw [knownLines, List.flatMap_cons, ← knownLines, List.count_append, ih, List.count_append,
        List.count_eq_zero.mpr single, List.length_cons]
      simp
      omega

theorem knownLines_ends (words : List UInt16) :
    knownLines words = [] ∨ ∃ before, knownLines words = before ++ ['\n'] := by
  rcases List.eq_nil_or_concat words with rfl | ⟨front, last, rfl⟩
  · exact Or.inl rfl
  · refine Or.inr ⟨knownLines front ++ (Instruction.decode last.toNat).text.toList, ?_⟩
    simp [knownLines]

/-- The printed lines of any words, the invalid ones included. -/
def printedText (words : List UInt16) : String :=
  "\n".intercalate (words.map fun word => (Instruction.decode word.toNat).text)

theorem toList_printedText (before : List UInt16) (word : UInt16) (after : List UInt16) :
    ∃ tail, (tail = [] ∨ ∃ more, tail = '\n' :: more) ∧ '\t' ∉ tail ∧
      (printedText (before ++ word :: after)).toList =
        knownLines before ++ ((Instruction.decode word.toNat).text.toList ++ tail) := by
  have tabless : ∀ word : UInt16, '\t' ∉ (Instruction.decode word.toNat).text.toList :=
    fun word => (isLine_printed word.toNat).tabless
  refine ⟨after.flatMap fun word => '\n' :: (Instruction.decode word.toNat).text.toList, ?_, ?_, ?_⟩
  · cases after with
    | nil => exact Or.inl rfl
    | cons next after => exact Or.inr ⟨_, rfl⟩
  · simp [tabless]
  · induction before with
    | nil =>
        rw [printedText, List.nil_append, List.map_cons, toList_intercalate_cons, List.flatMap_map]
        rfl
    | cons first before ih =>
        rw [printedText] at ih ⊢
        rw [List.cons_append, List.map_cons, String.intercalate_cons_of_ne_nil (by simp),
          String.toList_append, String.toList_append, ih]
        simp [knownLines]

theorem assemble_unknown {before : List UInt16} {word : UInt16} {after : List UInt16}
    (known : ∀ word ∈ before, (Instruction.decode word.toNat).opcode?.isSome = true)
    (unknown : (Instruction.decode word.toNat).opcode? = none) :
    assemble (printedText (before ++ word :: after)) =
      .error (.report (.malformed (before.length + 1) 1 (Instruction.decode word.toNat).text)) := by
  obtain ⟨tail, tailStarts, tailTabless, printed⟩ := toList_printedText before word after
  have isLine := isLine_printed word.toNat
  have line := text_of_unknown unknown
  have lines := lines_knownLines known
  have kept : Text.expandTabs (printedText (before ++ word :: after)).toList =
      knownLines before ++ ((Instruction.decode word.toNat).text.toList ++ tail) := by
    rw [printed]
    apply expandTabs_tabless
    have tabless : '\t' ∉ knownLines before := by
      simp [knownLines, (isLine_printed _).tabless]
    simp [tabless, isLine.tabless, tailTabless]
  have opens : ∃ first more, (Instruction.decode word.toNat).text.toList ++ tail = first :: more ∧
      isSlotCharacter first = true := by
    rw [line]
    exact ⟨_, _, rfl, by decide⟩
  have here := skip_of_opens (lines.opens opens) none
  obtain ⟨final, last, passed, stop, _⟩ := passes_lines lines here rfl opens
  have absent : final.item Production.all = none := by
    rw [line] at stop
    exact item_of_unknown stop
  have unfinished : final.skip.rest ≠ [] := by
    obtain ⟨first, more, whole, _⟩ := opens
    rw [stop, whole]
    exact List.cons_ne_nil _ _
  have failed := parse_eq_error (kept ▸ passed) absent unfinished
  have trimmed := trim_unknown (hex_isNumeral 4 word.toNat)
  rw [← line] at trimmed
  rw [kept, stop, List.length_append, Nat.add_sub_cancel,
    malformedAt_line isLine.single (knownLines_ends before) tailStarts trimmed, count_knownLines,
    String.ofList_toList] at failed
  rw [assemble, failed]
  rfl

theorem message_malformed_first (line : Nat) (text : String) :
    (AsmError.malformed line 1 text).message =
      "Syntax error at line " ++ Numeral.decimal line ++ ", column 1: " ++ text := by
  have column : Numeral.decimal (1 : Nat) = "1" := by decide +kernel
  have joined : ", column " ++ "1" ++ ": " = ", column 1: " := by decide +kernel
  calc
    _ = "Syntax error at line " ++ Numeral.decimal line ++ ", column " ++
        Numeral.decimal (1 : Nat) ++ ": " ++ text := rfl
    _ = "Syntax error at line " ++ Numeral.decimal line ++ (", column " ++ "1" ++ ": ") ++
        text := by simp only [column, String.append_assoc]
    _ = _ := by rw [joined]

/-- A printed program is assembled to its words, and the first printed word that is no instruction
    is reported as a syntax error at the beginning of its line. -/
theorem assemble_printed (words : List UInt16) :
    (∀ text, Written words text →
      assemble (String.ofList text) = .ok (words.flatMap bigEndian)) ∧
    ∀ before word after, words = before ++ word :: after →
      (∀ known ∈ before, (Instruction.decode known.toNat).opcode?.isSome = true) →
        (Instruction.decode word.toNat).opcode? = none →
          ∃ error : AsmError, assemble (printedText words) = .error (.report error) ∧
            error.message = "Syntax error at line " ++ Numeral.decimal (before.length + 1 : Nat) ++
              ", column 1: " ++ (Instruction.decode word.toNat).text := by
  refine ⟨fun text written => assemble_of_written written, ?_⟩
  intro before word after split known unknown
  subst split
  exact ⟨_, assemble_unknown known unknown, message_malformed_first _ _⟩

theorem assemble_printed_three :
    Written [0x00E0, 0xFFFF, 0x8126] "CLS ;x\n\tDW 0xffFF//y\nSHR V1, V2".toList ∧
      assemble (String.ofList "CLS ;x\n\tDW 0xffFF//y\nSHR V1, V2".toList) =
        .ok [0x00, 0xE0, 0xFF, 0xFF, 0x81, 0x26] ∧
      ∃ error : AsmError, assemble (printedText [0x00E0, 0xFFFF, 0x8126]) =
        .error (.report error) ∧
          error.message = "Syntax error at line 2, column 1: INVALID 0xFFFF" := by
  have clear : Spells 0x00E0 "CLS".toList := .mnemonic (by decide)
  have raw : Spells 0xFFFF ("DW 0x".toList ++ "ffFF".toList) :=
    .digits (by decide) (by decide) ⟨by decide, List.all_eq_true.mp (by decide), by decide⟩
  have spelled : (Instruction.decode (0x8126 : UInt16).toNat).text.toList = "SHR V1, V2".toList := by
    decide +kernel
  have shift : Spells 0x8126 "SHR V1, V2".toList := spelled ▸ .mnemonic (by decide)
  have first : Gap " ;x\n\t".toList :=
    .append (.blank ' ' rfl) (.append (.comment [';'] ['x'] (.inl rfl) (by decide)) (.blank '\t' rfl))
  have second : Gap "//y\n".toList := .comment ['/', '/'] ['y'] (.inr rfl) (by decide)
  have written : Written [0x00E0, 0xFFFF, 0x8126] "CLS ;x\n\tDW 0xffFF//y\nSHR V1, V2".toList :=
    .lines (.line clear first (.line raw second .nothing)) shift
  have invalid : (Instruction.decode (0xFFFF : UInt16).toNat).text = "INVALID 0xFFFF" := by
    decide +kernel
  obtain ⟨assembled, failed⟩ := assemble_printed [0x00E0, 0xFFFF, 0x8126]
  refine ⟨written, assembled _ written, ?_⟩
  obtain ⟨error, reported, told⟩ := failed [0x00E0] 0xFFFF [0x8126] rfl
    (List.forall_mem_singleton.mpr (by decide)) (by decide)
  rw [invalid] at told
  exact ⟨error, reported, told.trans (by decide +kernel)⟩

end Chip8.Assembly
