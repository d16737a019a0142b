import Chip8.Proofs.Assembly.Reading
import Mathlib

namespace Chip8.Assembly

/-! Which production reads an item is settled by its mnemonic and by the characters at which its
    slots begin. Only the two jumps can both read the same text. -/

/-- What holds of the first 128 characters is checked on each of them. -/
theorem forall_ascii (property : Char → Prop)
    (checked : ∀ code, code < 128 → property (Char.ofNat code))
    (character : Char) (ascii : character.toNat < 128) : property character := by
  have found := checked character.toNat ascii
  rwa [Char.ofNat_toNat] at found

theorem toUpper_of_large {character : Char} (large : ¬ character.toNat < 128) :
    character.toUpper = character := by
  rw [Char.toUpper, dif_neg]
  intro range
  have bound := UInt32.le_iff_toNat_le.mp range.2
  change character.toNat ≤ 122 at bound
  omega

namespace Cursor

theorem isAlphanum_ascii {character : Char} (alphanum : character.isAlphanum = true) :
    character.toNat < 128 := by
  simp only [Char.isAlphanum, Char.isAlpha, Char.isUpper, Char.isLower, Char.isDigit,
    Bool.or_eq_true, Bool.and_eq_true, decide_eq_true_eq, UInt32.le_iff_toNat_le, ge_iff_le]
    at alphanum
  change ((65 ≤ character.toNat ∧ character.toNat ≤ 90) ∨
    (97 ≤ character.toNat ∧ character.toNat ≤ 122)) ∨
      (48 ≤ character.toNat ∧ character.toNat ≤ 57) at alphanum
  omega

theorem isNamePart_ascii {character : Char} (part : isNamePart character = true) :
    character.toNat < 128 := by
  simp only [isNamePart, Bool.or_eq_true, beq_iff_eq] at part
  rcases part with alphanum | rfl
  · exact isAlphanum_ascii alphanum
  · decide

theorem isDigitOf_ascii {base : Nat} {character : Char} (digit : isDigitOf base character = true) :
    character.toNat < 128 := by
  by_contra large
  have none : Numeral.digitValue? base character = none := by
    simp only [Numeral.digitValue?]
    rw [if_neg (by omega), if_neg (by omega), if_neg (by omega)]
    rfl
  simp [isDigitOf, none] at digit

theorem isNamePart_clings {character : Char} (part : isNamePart character = true) :
    clingsToKeyword character = true :=
  forall_ascii (fun character => isNamePart character = true → clingsToKeyword character = true)
    (by decide) character (isNamePart_ascii part) part

theorem clings_of_capital {character : Char} (letter : (capital character).isUpper = true) :
    clingsToKeyword character = true := by
  simp only [clingsToKeyword, letter, Bool.true_or]

/-- The word is spelled in capitals, so every character that stands for one of them would cling to
    a shorter keyword. -/
def IsMnemonic (word : String) : Prop :=
  ∀ letter ∈ word.toList, letter.isUpper = true

theorem keyword_covers {word : String} {cursor next : Cursor} {extra rest : List Char}
    (taken : List Char) (upper : ∀ letter ∈ (taken ++ extra).map capital, letter.isUpper = true)
    (read : keyword word cursor = some next) (remaining : next.rest = extra ++ rest) :
    extra = [] := by
  obtain ⟨_, _, ending⟩ := keyword_eq_some_iff.mp read
  cases extra with
  | nil => rfl
  | cons character more =>
      have letter := upper (capital character) (by simp)
      simp [remaining, clings_of_capital letter] at ending

theorem keyword_unique {first second : String} {cursor afterFirst afterSecond : Cursor}
    (firstUpper : IsMnemonic first) (secondUpper : IsMnemonic second)
    (firstRead : keyword first cursor = some afterFirst)
    (secondRead : keyword second cursor = some afterSecond) : first = second := by
  obtain ⟨_, firstSpelled, _⟩ := keyword_eq_some_iff.mp firstRead
  obtain ⟨_, secondSpelled, _⟩ := keyword_eq_some_iff.mp secondRead
  obtain ⟨firstTaken, firstRest, firstLetters, _⟩ := letters_eq_some_iff.mp firstSpelled
  obtain ⟨secondTaken, secondRest, secondLetters, _⟩ := letters_eq_some_iff.mp secondSpelled
  have same : firstTaken = secondTaken := by
    rcases List.append_eq_append_iff.mp (firstRest.symm.trans secondRest) with
      ⟨extra, longer, remaining⟩ | ⟨extra, longer, remaining⟩
    · have none := keyword_covers firstTaken
        (by rw [← longer, secondLetters]; exact secondUpper) firstRead remaining
      rw [longer, none, List.append_nil]
    · have none := keyword_covers secondTaken
        (by rw [← longer, firstLetters]; exact firstUpper) secondRead remaining
      rw [longer, none, List.append_nil]
  apply String.toList_inj.mp
  rw [← firstLetters, ← secondLetters, same]

theorem isInk_of_capital {character : Char} (letter : (capital character).isUpper = true) :
    isInk character = true ∧ character ≠ ':' := by
  constructor
  · simp only [isInk, isBlank, Bool.and_eq_true, Bool.not_eq_true', Bool.or_eq_false_iff,
      beq_eq_false_iff_ne, bne_iff_ne]
    refine ⟨⟨⟨⟨⟨?_, ?_⟩, ?_⟩, ?_⟩, ?_⟩, ?_⟩
    all_goals
      intro same
      subst same
      exact absurd letter (by decide)
  · intro same
    subst same
    exact absurd letter (by decide)

theorem isNamePart_of_isNameStart {character : Char} (start : isNameStart character = true) :
    isNamePart character = true := by
  simp only [isNameStart, isNamePart, Char.isAlphanum, Bool.or_eq_true] at start ⊢
  exact start.imp_left Or.inl

/-- Where a keyword is read, a label can only be the very same characters with a colon behind. -/
theorem label_eq_none_of_keyword {word : String} {cursor next : Cursor} (upper : IsMnemonic word)
    (read : keyword word cursor = some next) (noColon : next.ahead ≠ some ':') :
    cursor.label = none := by
  obtain ⟨_, spelled, ending⟩ := keyword_eq_some_iff.mp read
  obtain ⟨taken, whole, letters, _⟩ := letters_eq_some_iff.mp spelled
  have capitals : ∀ character ∈ taken, (capital character).isUpper = true := fun character member =>
    upper _ (by rw [← letters]; exact List.mem_map_of_mem member)
  rw [Option.eq_none_iff_forall_ne_some]
  intro found labelled
  obtain ⟨item, final⟩ := found
  obtain ⟨text, afterName, named, colon, _⟩ := label_eq_some_iff.mp labelled
  obtain ⟨first, more, nameWhole, start, within, _⟩ := name_eq_some_iff.mp named
  obtain ⟨colonRest, _⟩ := symbol_eq_some_iff.mp colon
  have parts : ∀ character ∈ first :: more, isNamePart character = true :=
    List.forall_mem_cons.mpr ⟨isNamePart_of_isNameStart start, within⟩
  have sameEnd : next.rest ≠ afterName.rest := by
    intro same
    apply noColon
    rw [ahead, skip_rest_congr same, colonRest, List.head?_cons]
  rw [whole, ← List.cons_append] at nameWhole
  rcases List.append_eq_append_iff.mp nameWhole with
    ⟨extra, longer, remaining⟩ | ⟨extra, shorter, remaining⟩
  · cases extra with
    | nil => exact sameEnd remaining
    | cons character extra =>
        have clings := isNamePart_clings (parts character (by rw [longer]; simp))
        simp [remaining, clings] at ending
  · cases extra with
    | nil => exact sameEnd remaining.symm
    | cons character extra =>
        -- The name stopped inside the keyword, at a letter beyond the names' own.
        obtain ⟨ink, notColon⟩ := isInk_of_capital (capitals character (by rw [shorter]; simp))
        have stopped : afterName.skip = afterName := by
          obtain ⟨last, rest⟩ := afterName
          cases remaining
          exact skip_of_ink ink
        rw [stopped, remaining] at colonRest
        exact notColon (List.cons.inj colonRest).1

/-! The characters at which the text of a slot begins, small letters counting as capitals. Words
    that are empty have none. -/

def digitOpenings : List Char := ['0', '1', '2', '3', '4', '5', '6', '7', '8', '9']

def nameOpenings : List Char := '_' :: (List.range 26).map fun k => Char.ofNat (65 + k)

def openings : Slot → List Char
  | .operand .x | .operand .y => ['V']
  | .operand .n | .operand .byte => digitOpenings
  | .operand .addr => digitOpenings ++ nameOpenings
  | .fixed words => (words.head?.getD "").toList.take 1

theorem digit_opens {character : Char} (digit : isDigitOf 10 character = true) :
    capital character ∈ digitOpenings :=
  forall_ascii (fun character => isDigitOf 10 character = true → capital character ∈ digitOpenings)
    (by decide) character (isDigitOf_ascii digit) digit

theorem nameStart_opens {character : Char} (start : isNameStart character = true) :
    capital character ∈ nameOpenings :=
  forall_ascii (fun character => isNameStart character = true → capital character ∈ nameOpenings)
    (by decide) character (isNamePart_ascii (isNamePart_of_isNameStart start)) start

theorem register_opens {cursor next : Cursor} {value : Nat}
    (read : register cursor = some (value, next)) :
    ∃ character, cursor.ahead = some character ∧ capital character = 'V' := by
  obtain ⟨letter, _, whole, isV, _⟩ := register_eq_some_iff.mp read
  exact ⟨letter, by rw [ahead, whole, List.head?_cons], isV⟩

theorem marked_opens {base : Nat} {value : Except Failure Nat} {isMark : Char → Bool}
    {cursor next : Cursor} (read : marked base isMark cursor = some (value, next)) :
    cursor.rest.head? = some '0' := by
  obtain ⟨_, _, _, _, eaten, _⟩ := marked_eq_some_iff.mp read
  obtain ⟨zero, whole, _⟩ := eat_eq_some_iff.mp eaten
  rw [whole, List.head?_cons, beq_iff_eq.mp zero]

theorem number_opens {cursor next : Cursor} {value : Except Failure Nat}
    (read : number cursor = some (value, next)) :
    ∃ character, cursor.ahead = some character ∧ capital character ∈ digitOpenings := by
  rcases number_eq_some_iff.mp read with hexadecimal | ⟨_, binary | ⟨_, plain⟩⟩
  · exact ⟨'0', marked_opens hexadecimal, by decide⟩
  · exact ⟨'0', marked_opens binary, by decide⟩
  · obtain ⟨taken, nonempty, whole, within, _⟩ := numeral_eq_some_iff.mp plain
    obtain ⟨first, more, rfl⟩ := List.exists_cons_of_ne_nil nonempty
    exact ⟨first, by rw [ahead, whole]; rfl, digit_opens (within first (by simp))⟩

theorem literal_opens {cursor next : Cursor} {operand : Except Failure Operand}
    (read : literal cursor = some (operand, next)) :
    ∃ character, cursor.ahead = some character ∧ capital character ∈ digitOpenings := by
  obtain ⟨value, found, _⟩ := literal_eq_some_iff.mp read
  exact number_opens found

theorem address_opens {cursor next : Cursor} {operand : Except Failure Operand}
    (read : address cursor = some (operand, next)) :
    ∃ character, cursor.ahead = some character ∧
      capital character ∈ digitOpenings ++ nameOpenings := by
  rcases address_eq_some_iff.mp read with found | ⟨_, text, named, _⟩
  · obtain ⟨character, here, opens⟩ := literal_opens found
    exact ⟨character, here, List.mem_append_left _ opens⟩
  · obtain ⟨first, more, whole, start, _⟩ := name_eq_some_iff.mp named
    exact ⟨first, by rw [ahead, whole, List.head?_cons],
      List.mem_append_right _ (nameStart_opens start)⟩

theorem number_eq_none_of_name {cursor next : Cursor} {text : String}
    (named : name cursor = some (text, next)) : number cursor = none := by
  rw [Option.eq_none_iff_forall_ne_some]
  intro found numbered
  obtain ⟨value, after⟩ := found
  obtain ⟨first, more, whole, start, _⟩ := name_eq_some_iff.mp named
  obtain ⟨character, here, digit⟩ := number_opens numbered
  rw [ahead, whole, List.head?_cons, Option.some.injEq] at here
  have apart : nameOpenings.any digitOpenings.contains = false := by decide
  subst here
  exact List.any_eq_false.mp apart _ (nameStart_opens start) (List.contains_iff_mem.mpr digit)

theorem keyword_opens {word : String} {cursor next : Cursor}
    (read : keyword word cursor = some next) (nonempty : word.toList.take 1 ≠ []) :
    ∃ character, cursor.ahead = some character ∧ capital character ∈ word.toList.take 1 := by
  obtain ⟨_, spelled, _⟩ := keyword_eq_some_iff.mp read
  obtain ⟨taken, whole, letters, _⟩ := letters_eq_some_iff.mp spelled
  rw [← letters] at nonempty ⊢
  cases taken with
  | nil => simp at nonempty
  | cons first more => exact ⟨first, by rw [ahead, whole]; rfl, by simp⟩

theorem fixedWord_opens {word : String} {cursor next : Cursor}
    (read : fixedWord word cursor = some next) (nonempty : word.toList.take 1 ≠ []) :
    ∃ character, cursor.ahead = some character ∧ capital character ∈ word.toList.take 1 := by
  simp only [fixedWord] at read
  split at read
  · next bracket =>
      subst bracket
      exact ⟨'[', by rw [ahead, (symbol_eq_some_iff.mp read).1, List.head?_cons], by decide⟩
  · split at read
    · next bracket =>
        subst bracket
        exact ⟨']', by rw [ahead, (symbol_eq_some_iff.mp read).1, List.head?_cons], by decide⟩
    · exact keyword_opens read nonempty

theorem slot_opens {shape : Slot} {cursor next : Cursor}
    {operands : List (Except Failure Operand)}
    (read : slot shape cursor = some (operands, next)) (nonempty : openings shape ≠ []) :
    ∃ character, cursor.ahead = some character ∧ capital character ∈ openings shape := by
  cases shape with
  | operand field =>
      simp only [slot, Option.map_eq_some_iff, Prod.exists] at read
      obtain ⟨value, after, found, _⟩ := read
      cases field with
      | addr => exact address_opens found
      | x | y =>
          simp only [operand, Option.map_eq_some_iff, Prod.exists] at found
          obtain ⟨number, after, found, _⟩ := found
          obtain ⟨character, here, isV⟩ := register_opens found
          exact ⟨character, here, by rw [isV]; exact List.mem_singleton_self _⟩
      | n | byte => exact literal_opens found
  | fixed words =>
      simp only [slot, Option.map_eq_some_iff] at read
      obtain ⟨after, found, _⟩ := read
      cases words with
      | nil => simp [openings] at nonempty
      | cons word more =>
          simp only [fixedWords, Option.bind_eq_bind, Option.bind_eq_some_iff] at found
          obtain ⟨afterFirst, first, _⟩ := found
          exact fixedWord_opens first nonempty

/-- Two lists of slots are told apart at the first slot in which they differ. -/
def slotsApart : List Slot → List Slot → Bool
  | first :: firstRest, second :: secondRest =>
      if first = second then slotsApart firstRest secondRest
      else openings first != [] && openings second != [] &&
        (openings first).all fun character => !(openings second).contains character
  | _, _ => false

theorem slot_apart {first second : Slot} {cursor : Cursor}
    {firstRead secondRead : List (Except Failure Operand) × Cursor}
    (apart : (openings first != [] && openings second != [] &&
      (openings first).all fun character => !(openings second).contains character) = true)
    (readFirst : slot first cursor = some firstRead) :
    slot second cursor ≠ some secondRead := by
  intro readSecond
  simp only [Bool.and_eq_true, bne_iff_ne, List.all_eq_true, Bool.not_eq_true',
    List.contains_eq_mem, decide_eq_false_iff_not] at apart
  obtain ⟨character, here, opensFirst⟩ := slot_opens readFirst apart.1.1
  obtain ⟨other, there, opensSecond⟩ := slot_opens readSecond apart.1.2
  obtain rfl := Option.some.inj (here.symm.trans there)
  exact apart.2 _ opensFirst opensSecond

theorem furtherSlots_apart {first second : List Slot} {cursor : Cursor}
    {firstRead secondRead : List (Except Failure Operand) × Cursor} (apart : slotsApart first second = true)
    (readFirst : furtherSlots first cursor = some firstRead) :
    furtherSlots second cursor ≠ some secondRead := by
  intro readSecond
  induction first generalizing second cursor firstRead secondRead with
  | nil => simp [slotsApart] at apart
  | cons shape more ih =>
      cases second with
      | nil => simp [slotsApart] at apart
      | cons other others =>
          obtain ⟨_, _, _, _, comma, here, further, _⟩ :=
            furtherSlots_cons_eq_some_iff.mp readFirst
          obtain ⟨_, _, _, _, sameComma, there, otherFurther, _⟩ :=
            furtherSlots_cons_eq_some_iff.mp readSecond
          obtain rfl := Option.some.inj (comma.symm.trans sameComma)
          simp only [slotsApart] at apart
          split at apart
          · next same =>
              subst same
              obtain ⟨_, rfl⟩ := Prod.mk.inj (Option.some.inj (here.symm.trans there))
              exact ih apart further otherFurther
          · exact slot_apart apart here there

theorem slots_apart {first second : List Slot} {cursor : Cursor}
    {firstRead secondRead : List (Except Failure Operand) × Cursor} (apart : slotsApart first second = true)
    (readFirst : slots first cursor = some firstRead) :
    slots second cursor ≠ some secondRead := by
  intro readSecond
  cases first with
  | nil => simp [slotsApart] at apart
  | cons shape more =>
      cases second with
      | nil => simp [slotsApart] at apart
      | cons other others =>
          obtain ⟨_, _, _, here, further, _⟩ := slots_cons_eq_some_iff.mp readFirst
          obtain ⟨_, _, _, there, otherFurther, _⟩ := slots_cons_eq_some_iff.mp readSecond
          simp only [slotsApart] at apart
          split at apart
          · next same =>
              subst same
              obtain ⟨_, rfl⟩ := Prod.mk.inj (Option.some.inj (here.symm.trans there))
              exact furtherSlots_apart apart further otherFurther
          · exact slot_apart apart here there

end Cursor

namespace Production

def mnemonic : Production → String
  | instruction opcode => opcode.form.mnemonic
  | shift opcode => opcode.form.mnemonic
  | bytes => "DB"
  | words => "DW"

def jump : Production := instruction (.address .jump)

def offsetJump : Production := instruction (.address .jumpOffset)

theorem isMnemonic {production : Production} (listed : production ∈ all) :
    Cursor.IsMnemonic production.mnemonic := by
  have fromTable : ∀ production ∈ all, production.mnemonic.toList.all Char.isUpper = true := by
    decide
  exact List.all_eq_true.mp (fromTable production listed)

theorem mnemonic_ne_nil {production : Production} (listed : production ∈ all) :
    production.mnemonic.toList ≠ [] := by
  have fromTable : ∀ production ∈ all, production.mnemonic.toList ≠ [] := by decide
  exact fromTable production listed

theorem keyword_of_read {production : Production} {cursor next : Cursor} {reading : Reading}
    (read : production.read cursor = some (reading, next)) :
    ∃ afterMnemonic, Cursor.keyword production.mnemonic cursor = some afterMnemonic := by
  cases production with
  | instruction opcode =>
      obtain ⟨afterMnemonic, _, found, _⟩ := read_instruction_iff.mp read
      exact ⟨afterMnemonic, found⟩
  | shift opcode =>
      obtain ⟨afterMnemonic, _, _, found, _⟩ := read_shift_iff.mp read
      exact ⟨afterMnemonic, found⟩
  | bytes =>
      obtain ⟨afterMnemonic, _, found, _⟩ := read_bytes_iff.mp read
      exact ⟨afterMnemonic, found⟩
  | words =>
      obtain ⟨afterMnemonic, _, found, _⟩ := read_words_iff.mp read
      exact ⟨afterMnemonic, found⟩

def Apart : Production → Production → Bool
  | instruction first, instruction second =>
      Cursor.slotsApart first.form.slots second.form.slots
  | _, _ => false

/-- Productions with one mnemonic differ in a slot that begins differently, the jumps excepted. -/
theorem apart_of_mnemonic {first second : Production} (firstListed : first ∈ all)
    (secondListed : second ∈ all) (same : first.mnemonic = second.mnemonic) :
    first = second ∨ first.Apart second = true ∨
      first = offsetJump ∧ second = jump ∨ first = jump ∧ second = offsetJump := by
  have fromTable : ∀ first ∈ all, ∀ second ∈ all, first.mnemonic = second.mnemonic →
      first = second ∨ first.Apart second = true ∨
        first = offsetJump ∧ second = jump ∨ first = jump ∧ second = offsetJump := by
    decide +kernel
  exact fromTable first firstListed second secondListed same

theorem read_unique {first second : Production} {cursor : Cursor}
    {firstRead secondRead : Reading × Cursor} (firstListed : first ∈ all) (secondListed : second ∈ all)
    (readFirst : first.read cursor = some firstRead)
    (readSecond : second.read cursor = some secondRead) :
    first = second ∨ first = offsetJump ∧ second = jump ∨ first = jump ∧ second = offsetJump := by
  obtain ⟨afterFirst, firstKeyword⟩ := keyword_of_read readFirst
  obtain ⟨afterSecond, secondKeyword⟩ := keyword_of_read readSecond
  have same := Cursor.keyword_unique (isMnemonic firstListed) (isMnemonic secondListed)
    firstKeyword secondKeyword
  rcases apart_of_mnemonic firstListed secondListed same with equal | apart | jumps
  · exact Or.inl equal
  · cases first with
    | instruction firstOp =>
        cases second with
        | instruction secondOp =>
            obtain ⟨_, _, keyword, slots, _⟩ := read_instruction_iff.mp readFirst
            obtain ⟨_, _, otherKeyword, otherSlots, _⟩ := read_instruction_iff.mp readSecond
            simp only [mnemonic] at same
            rw [← same] at otherKeyword
            obtain rfl := Option.some.inj (keyword.symm.trans otherKeyword)
            exact absurd otherSlots (Cursor.slots_apart apart slots)
        | _ => simp [Apart] at apart
    | _ => simp [Apart] at apart
  · exact Or.inr jumps

/-- The productions in an order in which the jump relative to V0 comes before the plain one. -/
structure Arranged (productions : List Production) : Prop where
  perm : productions.Perm all
  offsetFirst : productions.idxOf offsetJump < productions.idxOf jump

theorem arranged_all : Arranged all where
  perm := .refl all
  offsetFirst := by decide

/-- What is found first is found by the plain jump only where the other one does not read. -/
theorem Arranged.exists_first {productions : List Production} {cursor : Cursor}
    {found : Reading × Cursor} (arranged : Arranged productions)
    (chosen : productions.findSome? (·.read cursor) = some found) :
    ∃ production ∈ all, production.read cursor = some found ∧
      (production = jump → offsetJump.read cursor = none) := by
  obtain ⟨front, production, back, split, read, earlier⟩ := List.findSome?_eq_some_iff.mp chosen
  refine ⟨production, ?_, read, fun isJump => earlier offsetJump ?_⟩
  · exact arranged.perm.mem_iff.mp (by simp [split])
  · subst isJump
    by_contra behind
    have first := arranged.offsetFirst
    rw [split, List.idxOf_append_of_notMem behind] at first
    have reached : (front ++ jump :: back).idxOf jump ≤ front.length := by
      rw [List.idxOf_append]
      split
      · exact List.idxOf_le_length
      · simp
    omega

/-- The order of the productions is of account only where both jumps read. -/
theorem Arranged.findSome?_read {productions : List Production} {production : Production}
    {cursor : Cursor} {found : Reading × Cursor} (arranged : Arranged productions)
    (listed : production ∈ all) (read : production.read cursor = some found)
    (alone : production = jump → offsetJump.read cursor = none) :
    productions.findSome? (·.read cursor) = some found := by
  cases chosen : productions.findSome? (·.read cursor) with
  | none =>
      have absent := List.findSome?_eq_none_iff.mp chosen production
        (arranged.perm.mem_iff.mpr listed)
      cases absent.symm.trans read
  | some other =>
      obtain ⟨producer, producerListed, otherRead, first⟩ := arranged.exists_first chosen
      rcases read_unique listed producerListed read otherRead with
        same | ⟨isOffset, isJump⟩ | ⟨isJump, isOffset⟩
      · rw [← same, read] at otherRead
        exact otherRead.symm
      · rw [isOffset, first isJump] at read
        contradiction
      · rw [isOffset, alone isJump] at otherRead
        contradiction

end Production

namespace Cursor

theorem eq_zero_of_capital {character : Char} (zero : capital character = '0') :
    character = '0' := by
  by_cases ascii : character.toNat < 128
  · exact forall_ascii (fun character => capital character = '0' → character = '0') (by decide)
      character ascii zero
  · rw [capital, toUpper_of_large ascii] at zero
    split at zero
    · exact absurd zero (by decide)
    · split at zero
      · exact absurd zero (by decide)
      · exact zero

/-- Where a name and the keyword V0 are read from one place, they end at one place. -/
theorem rest_of_name_of_keyword {text : String} {cursor afterName afterKeyword : Cursor}
    (named : name cursor = some (text, afterName))
    (spelled : keyword "V0" cursor = some afterKeyword) : afterName.rest = afterKeyword.rest := by
  obtain ⟨first, more, whole, _, within, stops, _⟩ := name_eq_some_iff.mp named
  obtain ⟨_, spelled, ending⟩ := keyword_eq_some_iff.mp spelled
  obtain ⟨taken, same, letters, _⟩ := letters_eq_some_iff.mp spelled
  obtain ⟨v, zero, rfl⟩ : ∃ v zero, taken = [v, zero] := by
    have length : taken.length = 2 := by rw [← List.length_map, letters]; rfl
    exact List.length_eq_two.mp length
  have digit : zero = '0' := eq_zero_of_capital (List.cons.inj (List.cons.inj letters).2).1
  subst digit
  simp only [whole, List.cons_append, List.nil_append, List.cons.injEq] at same
  obtain ⟨_, same⟩ := same
  cases more with
  | nil =>
      have part : isNamePart '0' = true := by decide
      rw [List.nil_append] at same
      simp [same, part] at stops
  | cons second more =>
      simp only [List.cons_append, List.cons.injEq] at same
      obtain ⟨_, same⟩ := same
      cases more with
      | nil => exact same
      | cons third more =>
          -- The name would go on behind the keyword, but what belongs to names clings to keywords.
          have clings := isNamePart_clings (within third (by simp))
          simp [← same, clings] at ending

/-- The jump relative to V0 needs the comma that a jump to a label with this name lacks. -/
theorem offsetJump_eq_none_of_jump {reading : Reading} {cursor next : Cursor}
    (read : Production.jump.read cursor = some (reading, next))
    (quiet : next.ahead ≠ some ',') : Production.offsetJump.read cursor = none := by
  rw [Option.eq_none_iff_forall_ne_some]
  intro found offset
  obtain ⟨afterMnemonic, _, mnemonic, filled, _⟩ := Production.read_instruction_iff.mp read
  obtain ⟨_, _, sameMnemonic, filledToo, _⟩ := Production.read_instruction_iff.mp offset
  cases mnemonic.symm.trans sameMnemonic
  obtain ⟨_, _, _, target, ended, _⟩ := slots_cons_eq_some_iff.mp filled
  obtain ⟨_, _, _, word, further, _⟩ := slots_cons_eq_some_iff.mp filledToo
  obtain ⟨_, _, _, _, comma, _⟩ := furtherSlots_cons_eq_some_iff.mp further
  cases ended
  obtain ⟨⟨operand, _⟩, address, same⟩ := Option.map_eq_some_iff.mp target
  cases same
  obtain ⟨_, spelled, same⟩ := Option.map_eq_some_iff.mp word
  cases same
  obtain ⟨_, spelled, same⟩ := Option.bind_eq_some_iff.mp spelled
  cases same
  rw [fixedWord, if_neg (by decide), if_neg (by decide)] at spelled
  rcases address_eq_some_iff.mp address with numbered | ⟨_, text, named, _⟩
  · obtain ⟨character, here, opens⟩ := literal_opens numbered
    obtain ⟨letter, there, isV⟩ := keyword_opens spelled (by decide)
    cases here.symm.trans there
    rw [show "V0".toList.take 1 = ['V'] from rfl, List.mem_singleton] at isV
    rw [isV] at opens
    exact absurd opens (by decide)
  · apply quiet
    rw [ahead, skip_rest_congr (rest_of_name_of_keyword named spelled),
      (symbol_eq_some_iff.mp comma).1, List.head?_cons]

theorem item_of_read {production : Production} {cursor : Cursor} {found : Reading × Cursor}
    (listed : production ∈ Production.all) (read : production.read cursor = some found)
    (alone : production = Production.jump → Production.offsetJump.read cursor = none)
    (noLabel : cursor.label = none) : cursor.item Production.all = some found := by
  rw [item, noLabel, Production.arranged_all.findSome?_read listed read alone, Option.none_or]

theorem item_of_single_shift {op : PairOp} {place afterMnemonic afterX : Cursor} {x : Nat}
    (shift : op = .shiftRight ∨ op = .shiftLeft)
    (mnemonic : keyword op.form.mnemonic place = some afterMnemonic)
    (first : register afterMnemonic = some (x, afterX))
    (single : (symbol ',' afterX).bind register = none) :
    place.item Production.all =
      some (.ok (.instruction (.pair op) [.number x, .number 0]), afterX) := by
  have listed : Production.shift (.pair op) ∈ Production.all := by
    rcases shift with rfl | rfl <;> decide
  have read : (Production.shift (.pair op)).read place =
      some (.ok (.instruction (.pair op) [.number x, .number 0]), afterX) :=
    Production.read_shift_iff.mpr ⟨_, _, _, mnemonic, first, Or.inr ⟨single, rfl, rfl⟩⟩
  have noLabel : place.label = none := by
    apply label_eq_none_of_keyword (Production.isMnemonic listed) mnemonic
    obtain ⟨letter, here, isV⟩ := register_opens first
    rw [here]
    intro found
    cases found
    exact absurd isV (by decide)
  refine item_of_read listed read (fun isJump => ?_) noLabel
  exact absurd isJump (by simp [Production.jump])

end Cursor

end Chip8.Assembly
