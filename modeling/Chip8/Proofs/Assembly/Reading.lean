import Chip8.Assembly.Parse
import Chip8.Proofs.Outcome

namespace Chip8.Assembly

/-! What the readers accept, said of the characters before and after the place and of what simpler
    readers accept. -/

theorem gather_eq_ok_iff {α : Type} {results : List (Except Failure α)} {values : List α} :
    gather results = .ok values ↔ results = values.map .ok := by
  rw [gather, mapM_eq_ok_iff]
  constructor
  · intro paired
    induction paired with
    | nil => rfl
    | cons first _ ih => rw [List.map_cons, ← ih, ← first, id]
  · intro same
    subst same
    exact List.forall₂_map_left_iff.mpr (List.forall₂_same.mpr fun _ _ => rfl)

@[simp] theorem gather_map_ok {α : Type} (values : List α) :
    gather (values.map .ok) = .ok values :=
  gather_eq_ok_iff.mpr rfl

theorem gather_cons {α : Type} (first : Except Failure α) (rest : List (Except Failure α)) :
    gather (first :: rest) = first >>= fun value => (gather rest).map (value :: ·) := by
  rw [gather, List.mapM_cons]
  rfl

theorem gather_map_map {α β : Type} (change : α → β) (results : List (Except Failure α)) :
    gather (results.map (·.map change)) = (gather results).map (·.map change) := by
  induction results with
  | nil => rfl
  | cons first rest ih =>
      rw [List.map_cons, gather_cons, gather_cons, ih]
      cases first with
      | error reason => rfl
      | ok value => cases gather rest <;> rfl

namespace Cursor

variable {cursor next : Cursor}

/-- What is skipped does not depend on the character before the place. -/
theorem skipFrom_rest (commented : Bool) (first second : Option Char) (characters : List Char) :
    (skipFrom commented first characters).rest = (skipFrom commented second characters).rest := by
  cases characters with
  | nil => rfl
  | cons character rest =>
      rw [skipFrom, skipFrom]
      repeat' split
      all_goals rfl

theorem skip_rest_congr {other : Cursor} (same : cursor.rest = other.rest) :
    cursor.skip.rest = other.skip.rest := by
  rw [skip, skip, same]
  exact skipFrom_rest false _ _ _

theorem many_of_none {α : Type} {read : Cursor → Option (α × Cursor)} (shortens : Shortens read)
    (absent : read cursor = none) : cursor.many read shortens = ([], cursor) := by
  rw [many]
  split
  · rfl
  · next found => simp [absent] at found

theorem many_of_some {α : Type} {read : Cursor → Option (α × Cursor)} (shortens : Shortens read)
    {value : α} (found : read cursor = some (value, next)) :
    cursor.many read shortens =
      (value :: (next.many read shortens).1, (next.many read shortens).2) := by
  rw [many]
  split
  · next absent => simp [found] at absent
  · next other after same =>
      rw [found] at same
      cases same
      rfl

/-- The character at which the next token begins. -/
def ahead (cursor : Cursor) : Option Char :=
  cursor.skip.rest.head?

theorem ahead_of_end (finished : cursor.skip.rest = []) : cursor.ahead = none := by
  rw [ahead, finished, List.head?_nil]

theorem inside_of_ahead {character : Char} (here : cursor.ahead = some character) :
    cursor.skip.rest ≠ [] := by
  intro finished
  rw [ahead_of_end finished] at here
  cases here

/-- Characters that are neither blank nor begin a comment. -/
def isInk (character : Char) : Bool :=
  !isBlank character && character != ';' && character != '/'

theorem skip_of_ink {last : Option Char} {character : Char} {rest : List Char}
    (ink : isInk character = true) :
    skip ⟨last, character :: rest⟩ = ⟨last, character :: rest⟩ := by
  simp only [isInk, Bool.and_eq_true, Bool.not_eq_true', bne_iff_ne] at ink
  obtain ⟨⟨notBlank, notSemicolon⟩, notSlash⟩ := ink
  simp [skip, skipFrom, notBlank, notSemicolon, notSlash]

theorem eat_eq_some_iff {kind : Char → Bool} {character : Char} :
    cursor.eat kind = some (character, next) ↔
      kind character = true ∧ cursor.rest = character :: next.rest ∧
        next.last = some character := by
  obtain ⟨last, rest⟩ := cursor
  obtain ⟨nextLast, nextRest⟩ := next
  cases rest with
  | nil => simp [eat]
  | cons first more =>
      simp only [eat]
      split
      · next fits =>
          simp only [Option.some.injEq, Prod.mk.injEq, Cursor.mk.injEq, List.cons.injEq]
          constructor
          · intro found
            obtain ⟨rfl, rfl, rfl⟩ := found
            exact ⟨fits, ⟨rfl, rfl⟩, rfl⟩
          · intro found
            obtain ⟨_, ⟨rfl, rfl⟩, rfl⟩ := found
            exact ⟨rfl, rfl, rfl⟩
      · next misfit =>
          simp only [reduceCtorEq, List.cons.injEq, false_iff]
          intro found
          obtain ⟨fits, ⟨rfl, _⟩, _⟩ := found
          exact misfit fits

theorem getLast?_cons_or (character : Char) (taken : List Char) (last : Option Char) :
    (character :: taken).getLast?.or last = taken.getLast?.or (some character) := by
  rw [List.getLast?_cons]
  cases taken.getLast? <;> rfl

/-- A run of one kind ends where the kind does, and nowhere before. -/
theorem span_eq_iff {kind : Char → Bool} {last : Option Char} {characters taken : List Char} :
    span kind last characters = (taken, next) ↔
      characters = taken ++ next.rest ∧ (∀ character ∈ taken, kind character = true) ∧
        next.rest.head?.any kind = false ∧ next.last = taken.getLast?.or last := by
  induction characters generalizing last taken with
  | nil =>
      obtain ⟨nextLast, nextRest⟩ := next
      simp only [span, Prod.mk.injEq, Cursor.mk.injEq, List.nil_eq_append_iff]
      constructor
      · intro found
        obtain ⟨rfl, rfl, rfl⟩ := found
        exact ⟨⟨rfl, rfl⟩, by simp, rfl, rfl⟩
      · intro found
        obtain ⟨⟨rfl, rfl⟩, _, _, rfl⟩ := found
        exact ⟨rfl, rfl, rfl⟩
  | cons character rest ih =>
      simp only [span]
      split
      · next fits =>
          constructor
          · intro found
            simp only [Prod.mk.injEq] at found
            obtain ⟨rfl, sameNext⟩ := found
            obtain ⟨whole, within, stops, final⟩ := ih.mp (Prod.ext rfl sameNext)
            refine ⟨by rw [List.cons_append, ← whole], List.forall_mem_cons.mpr ⟨fits, within⟩, stops,
              ?_⟩
            rw [final, getLast?_cons_or]
          · intro found
            obtain ⟨whole, within, stops, final⟩ := found
            cases taken with
            | nil =>
                rw [List.nil_append] at whole
                simp [← whole, fits] at stops
            | cons first more =>
                obtain ⟨rfl, remaining⟩ := List.cons.inj whole
                rw [getLast?_cons_or] at final
                have within := (List.forall_mem_cons.mp within).2
                rw [ih.mpr ⟨remaining, within, stops, final⟩]
      · next misfit =>
          simp only [Prod.mk.injEq]
          constructor
          · intro found
            obtain ⟨rfl, rfl⟩ := found
            exact ⟨rfl, by simp, by simpa using misfit, rfl⟩
          · intro found
            obtain ⟨whole, within, _, final⟩ := found
            cases taken with
            | nil => exact ⟨rfl, Cursor.mk.injEq .. ▸ ⟨final.symm, whole⟩⟩
            | cons first more =>
                obtain ⟨rfl, _⟩ := List.cons.inj whole
                exact absurd (within _ (by simp)) misfit

theorem letters_eq_some_iff {word : List Char} :
    letters word cursor = some next ↔
      ∃ taken, cursor.rest = taken ++ next.rest ∧ taken.map capital = word ∧
        next.last = taken.getLast?.or cursor.last := by
  induction word generalizing cursor with
  | nil =>
      simp only [letters, List.map_eq_nil_iff, Option.some.injEq]
      constructor
      · intro same
        subst same
        exact ⟨[], rfl, rfl, rfl⟩
      · intro found
        obtain ⟨_, same, rfl, lastSame⟩ := found
        exact Cursor.mk.injEq .. ▸ ⟨lastSame.symm, same⟩
  | cons letter more ih =>
      simp only [letters, Option.bind_eq_bind, Option.bind_eq_some_iff, Prod.exists, ih,
        eat_eq_some_iff, beq_iff_eq]
      constructor
      · intro found
        obtain ⟨character, middle, ⟨rfl, eaten, middleLast⟩, taken, rest, rfl, final⟩ := found
        refine ⟨character :: taken, by rw [eaten, rest]; rfl, rfl, ?_⟩
        rw [final, middleLast, getLast?_cons_or]
      · intro found
        obtain ⟨taken, rest, spelled, final⟩ := found
        cases taken with
        | nil => cases spelled
        | cons character taken =>
            simp only [List.map_cons, List.cons.injEq] at spelled
            refine ⟨character, ⟨some character, taken ++ next.rest⟩, ⟨spelled.1, rest, rfl⟩, taken,
              rfl, spelled.2, ?_⟩
            rw [final, getLast?_cons_or]

theorem keyword_eq_some_iff {word : String} :
    keyword word cursor = some next ↔
      cursor.skip.last.any clingsToKeyword = false ∧
        letters word.toList cursor.skip = some next ∧
          next.rest.head?.any clingsToKeyword = false := by
  simp only [keyword]
  split
  · next clings => simp [clings]
  · next apart =>
      simp only [Option.bind_eq_bind, Option.bind_eq_some_iff, eq_false_of_ne_true apart, true_and]
      constructor
      · intro found
        obtain ⟨found, spelled, ending⟩ := found
        split at ending
        · contradiction
        · next open_ =>
            cases ending
            exact ⟨spelled, eq_false_of_ne_true open_⟩
      · intro found
        obtain ⟨spelled, ending⟩ := found
        exact ⟨next, spelled, by simp [ending]⟩

theorem symbol_eq_some_iff {character : Char} :
    symbol character cursor = some next ↔
      cursor.skip.rest = character :: next.rest ∧ next.last = some character := by
  simp only [symbol, Option.bind_eq_bind, Option.bind_eq_some_iff, Prod.exists, Option.some.injEq,
    eat_eq_some_iff, beq_iff_eq]
  constructor
  · intro found
    obtain ⟨_, _, ⟨rfl, rest, last⟩, rfl⟩ := found
    exact ⟨rest, last⟩
  · intro found
    obtain ⟨rest, last⟩ := found
    exact ⟨character, next, ⟨rfl, rest, last⟩, rfl⟩

theorem symbol_eq_none_iff {character : Char} :
    symbol character cursor = none ↔ cursor.ahead ≠ some character := by
  rw [Option.eq_none_iff_forall_ne_some]
  constructor
  · intro absent here
    obtain ⟨rest, whole⟩ := List.head?_eq_some_iff.mp here
    exact absent ⟨some character, rest⟩ (symbol_eq_some_iff.mpr ⟨whole, rfl⟩)
  · intro other next read
    apply other
    rw [ahead, (symbol_eq_some_iff.mp read).1, List.head?_cons]

theorem name_eq_some_iff {text : String} :
    name cursor = some (text, next) ↔
      ∃ first more, cursor.skip.rest = first :: (more ++ next.rest) ∧ isNameStart first = true ∧
        (∀ character ∈ more, isNamePart character = true) ∧
          next.rest.head?.any isNamePart = false ∧ text = String.ofList (first :: more) ∧
            next.last = more.getLast?.or (some first) := by
  simp only [name, Option.bind_eq_bind, Option.bind_eq_some_iff, Prod.exists, eat_eq_some_iff,
    Option.some.injEq, Prod.mk.injEq]
  constructor
  · intro found
    obtain ⟨first, afterFirst, ⟨start, eaten, last⟩, rfl, rfl⟩ := found
    obtain ⟨whole, within, stops, final⟩ := span_eq_iff.mp
      (Prod.ext rfl rfl : span isNamePart afterFirst.last afterFirst.rest = (_, _))
    exact ⟨first, _, by rw [eaten, ← whole], start, within, stops, rfl, final.trans (by rw [last])⟩
  · intro found
    obtain ⟨first, more, rest, start, within, stops, rfl, final⟩ := found
    refine ⟨first, ⟨some first, more ++ next.rest⟩, ⟨start, rest, rfl⟩, ?_⟩
    have spanned : span isNamePart (some first) (more ++ next.rest) = (more, next) :=
      span_eq_iff.mpr ⟨rfl, within, stops, final⟩
    simp only [spanned, and_self]

theorem numeral_eq_some_iff {base : Nat} {value : Except Failure Nat} :
    numeral base cursor = some (value, next) ↔
      ∃ taken, taken ≠ [] ∧ cursor.rest = taken ++ next.rest ∧
        (∀ character ∈ taken, isDigitOf base character = true) ∧
          next.rest.head?.any (isDigitOf base) = false ∧
            value = spelled base (taken.filterMap (Numeral.digitValue? base)) ∧
              next.last = taken.getLast?.or cursor.last := by
  simp only [numeral, eatSome, Option.bind_eq_bind, Option.bind_eq_some_iff, Prod.exists,
    Option.some.injEq, Prod.mk.injEq]
  constructor
  · intro found
    obtain ⟨taken, final, found, rfl, rfl⟩ := found
    split at found
    · contradiction
    · next nonempty spanned =>
        cases found
        obtain ⟨whole, within, stops, last⟩ := span_eq_iff.mp spanned
        exact ⟨taken, nonempty, whole, within, stops, rfl, last⟩
  · intro found
    obtain ⟨taken, nonempty, whole, within, stops, rfl, last⟩ := found
    refine ⟨taken, next, ?_, rfl, rfl⟩
    rw [span_eq_iff.mpr ⟨whole, within, stops, last⟩]
    cases taken with
    | nil => contradiction
    | cons first more => rfl

theorem numeral_eq_none_iff {base : Nat} :
    numeral base cursor = none ↔ cursor.rest.head?.any (isDigitOf base) = false := by
  obtain ⟨last, rest⟩ := cursor
  cases rest with
  | nil => exact iff_of_true rfl rfl
  | cons character more =>
      by_cases digit : isDigitOf base character <;> simp [numeral, eatSome, span, digit]

theorem marked_eq_some_iff {base : Nat} {value : Except Failure Nat} {isMark : Char → Bool} :
    marked base isMark cursor = some (value, next) ↔
      ∃ zero afterZero mark afterMark, cursor.eat (· == '0') = some (zero, afterZero) ∧
        afterZero.eat isMark = some (mark, afterMark) ∧
          numeral base afterMark = some (value, next) := by
  simp only [marked, Option.bind_eq_bind, Option.bind_eq_some_iff, Prod.exists, exists_and_left]

theorem number_eq_some_iff {value : Except Failure Nat} :
    number cursor = some (value, next) ↔
      let hexadecimal := marked 16 (fun mark => mark == 'x' || mark == 'X') cursor.skip
      let binary := marked 2 (fun mark => mark == 'b' || mark == 'B') cursor.skip
      hexadecimal = some (value, next) ∨ hexadecimal = none ∧
        (binary = some (value, next) ∨ binary = none ∧
          numeral 10 cursor.skip = some (value, next)) := by
  simp only [number, Option.orElse_eq_orElse, Option.orElse_eq_or, Option.or_eq_some_iff]

theorem register_eq_some_iff {value : Nat} :
    register cursor = some (value, next) ↔
      ∃ letter digit, cursor.skip.rest = letter :: digit :: next.rest ∧ capital letter = 'V' ∧
        isDigitOf 16 digit = true ∧ next.rest.head?.any Text.isWordCharacter = false ∧
          value = (Numeral.digitValue? 16 digit).getD 0 ∧ next.last = some digit := by
  simp only [register, Option.bind_eq_bind, Option.bind_eq_some_iff, Prod.exists, eat_eq_some_iff,
    beq_iff_eq]
  constructor
  · intro found
    obtain ⟨letter, afterLetter, ⟨isV, first, _⟩, digit, final, ⟨isDigit, second, last⟩, bounded⟩ :=
      found
    split at bounded
    · contradiction
    · next apart =>
        cases bounded
        exact ⟨letter, digit, by rw [first, second], isV, isDigit, eq_false_of_ne_true apart, rfl,
          last⟩
  · intro found
    obtain ⟨letter, digit, whole, isV, isDigit, apart, rfl, last⟩ := found
    exact ⟨letter, ⟨some letter, digit :: next.rest⟩, ⟨isV, whole, rfl⟩, digit, next,
      ⟨isDigit, rfl, last⟩, by simp [apart]⟩

/-! Readers of several tokens. -/

theorem literal_eq_some_iff {operand : Except Failure Operand} :
    literal cursor = some (operand, next) ↔
      ∃ reading, number cursor = some (reading, next) ∧
        operand = reading.map fun (value : Nat) => .number value := by
  simp only [literal, Option.map_eq_some_iff, Prod.exists, Prod.mk.injEq]
  constructor
  · intro found
    obtain ⟨reading, after, here, rfl, rfl⟩ := found
    exact ⟨reading, here, rfl⟩
  · intro found
    obtain ⟨reading, here, rfl⟩ := found
    exact ⟨reading, next, here, rfl, rfl⟩

theorem literal_eq_none_iff : literal cursor = none ↔ number cursor = none := by
  rw [literal, Option.map_eq_none_iff]

theorem address_eq_some_iff {operand : Except Failure Operand} :
    address cursor = some (operand, next) ↔
      literal cursor = some (operand, next) ∨
        number cursor = none ∧
          ∃ text, name cursor = some (text, next) ∧ operand = .ok (.label text) := by
  rw [address, ← literal_eq_none_iff]
  cases literal cursor with
  | some found => simp
  | none =>
      simp only [Option.map_eq_some_iff, Prod.exists, Prod.mk.injEq, reduceCtorEq, false_or,
        true_and]
      constructor
      · intro found
        obtain ⟨text, after, named, rfl, rfl⟩ := found
        exact ⟨text, named, rfl⟩
      · intro found
        obtain ⟨text, named, rfl⟩ := found
        exact ⟨text, next, named, rfl, rfl⟩

theorem furtherSlots_cons_eq_some_iff {shape : Slot} {shapes : List Slot}
    {operands : List (Except Failure Operand)} :
    furtherSlots (shape :: shapes) cursor = some (operands, next) ↔
      ∃ afterComma first middle more, symbol ',' cursor = some afterComma ∧
        slot shape afterComma = some (first, middle) ∧
          furtherSlots shapes middle = some (more, next) ∧ operands = first ++ more := by
  simp only [furtherSlots, Option.bind_eq_bind, Option.bind_eq_some_iff, Prod.exists,
    Option.some.injEq, Prod.mk.injEq]
  constructor
  · intro found
    obtain ⟨afterComma, comma, first, middle, here, more, final, further, rfl, rfl⟩ := found
    exact ⟨afterComma, first, middle, more, comma, here, further, rfl⟩
  · intro found
    obtain ⟨afterComma, first, middle, more, comma, here, further, rfl⟩ := found
    exact ⟨afterComma, comma, first, middle, here, more, next, further, rfl, rfl⟩

theorem slots_cons_eq_some_iff {shape : Slot} {shapes : List Slot}
    {operands : List (Except Failure Operand)} :
    slots (shape :: shapes) cursor = some (operands, next) ↔
      ∃ first middle more, slot shape cursor = some (first, middle) ∧
        furtherSlots shapes middle = some (more, next) ∧ operands = first ++ more := by
  simp only [slots, Option.bind_eq_bind, Option.bind_eq_some_iff, Prod.exists,
    Option.some.injEq, Prod.mk.injEq]
  constructor
  · intro found
    obtain ⟨first, middle, here, more, final, further, rfl, rfl⟩ := found
    exact ⟨first, middle, more, here, further, rfl⟩
  · intro found
    obtain ⟨first, middle, more, here, further, rfl⟩ := found
    exact ⟨first, middle, here, more, next, further, rfl, rfl⟩

theorem afterComma_eq_some_iff {α : Type} {entry : Cursor → Option (α × Cursor)}
    {found : α × Cursor} :
    afterComma entry cursor = some found ↔
      ∃ middle, symbol ',' cursor = some middle ∧ entry middle = some found :=
  Option.bind_eq_some_iff

theorem afterComma_eq_none {α : Type} {entry : Cursor → Option (α × Cursor)}
    (quiet : cursor.ahead ≠ some ',') : afterComma entry cursor = none := by
  rw [afterComma, symbol_eq_none_iff.mpr quiet]
  rfl

theorem listOf_eq_some_iff {α : Type} {entry : Cursor → Option (α × Cursor)}
    {shortens : Shortens entry} {values : List α} :
    listOf entry shortens cursor = some (values, next) ↔
      ∃ first middle more, entry cursor = some (first, middle) ∧
        middle.many (afterComma entry) (afterComma_shortens shortens) = (more, next) ∧
          values = first :: more := by
  simp only [listOf, Option.bind_eq_bind, Option.bind_eq_some_iff, Prod.exists,
    Option.some.injEq, Prod.mk.injEq]
  constructor
  · intro found
    obtain ⟨first, middle, here, rfl, rfl⟩ := found
    exact ⟨first, middle, _, here, rfl, rfl⟩
  · intro found
    obtain ⟨first, middle, more, here, further, rfl⟩ := found
    exact ⟨first, middle, here, by rw [further], by rw [further]⟩

theorem label_eq_some_iff {reading : Reading} :
    label cursor = some (reading, next) ↔
      ∃ text middle, name cursor = some (text, middle) ∧ symbol ':' middle = some next ∧
        reading = .ok (.label text) := by
  simp only [label, Option.bind_eq_bind, Option.bind_eq_some_iff, Prod.exists, Option.some.injEq,
    Prod.mk.injEq]
  constructor
  · intro found
    obtain ⟨text, middle, named, final, colon, rfl, rfl⟩ := found
    exact ⟨text, middle, named, colon, rfl⟩
  · intro found
    obtain ⟨text, middle, named, colon, rfl⟩ := found
    exact ⟨text, middle, named, next, colon, rfl, rfl⟩

end Cursor

namespace Production

open Cursor

variable {cursor next : Cursor} {reading : Reading} {opcode : Opcode}

theorem read_instruction_iff :
    (instruction opcode).read cursor = some (reading, next) ↔
      ∃ afterMnemonic operands, keyword opcode.form.mnemonic cursor = some afterMnemonic ∧
        slots opcode.form.slots afterMnemonic = some (operands, next) ∧
          reading = (gather operands).map (.instruction opcode) := by
  simp only [read, Option.bind_eq_bind, Option.bind_eq_some_iff, Prod.exists, Option.some.injEq,
    Prod.mk.injEq]
  constructor
  · intro found
    obtain ⟨afterMnemonic, mnemonic, operands, final, found, rfl, rfl⟩ := found
    exact ⟨afterMnemonic, operands, mnemonic, found, rfl⟩
  · intro found
    obtain ⟨afterMnemonic, operands, mnemonic, found, rfl⟩ := found
    exact ⟨afterMnemonic, mnemonic, operands, next, found, rfl, rfl⟩

/-- The comma behind the first register is given back where no register follows it. -/
theorem read_shift_iff :
    (shift opcode).read cursor = some (reading, next) ↔
      ∃ afterMnemonic x afterX, keyword opcode.form.mnemonic cursor = some afterMnemonic ∧
        register afterMnemonic = some (x, afterX) ∧
          ((∃ y, afterComma register afterX = some (y, next) ∧
              reading = .ok (.instruction opcode [.number x, .number y])) ∨
            afterComma register afterX = none ∧ next = afterX ∧
              reading = .ok (.instruction opcode [.number x, .number 0])) := by
  simp only [read, Option.bind_eq_bind, Option.bind_eq_some_iff, Prod.exists]
  constructor
  · intro found
    obtain ⟨afterMnemonic, mnemonic, x, afterX, first, found⟩ := found
    refine ⟨afterMnemonic, x, afterX, mnemonic, first, ?_⟩
    split at found
    · next y final second =>
        cases found
        exact Or.inl ⟨y, second, rfl⟩
    · next absent =>
        cases found
        exact Or.inr ⟨absent, rfl, rfl⟩
  · intro found
    obtain ⟨afterMnemonic, x, afterX, mnemonic, first, ⟨y, second, rfl⟩ | ⟨absent, rfl, rfl⟩⟩ := found
    · refine ⟨afterMnemonic, mnemonic, x, afterX, first, ?_⟩
      rw [show (symbol ',' afterX).bind register = some (y, next) from second]
    · refine ⟨afterMnemonic, mnemonic, x, next, first, ?_⟩
      rw [show (symbol ',' next).bind register = none from absent]

theorem read_bytes_iff :
    bytes.read cursor = some (reading, next) ↔
      ∃ afterMnemonic values, keyword "DB" cursor = some afterMnemonic ∧
        listOf number number_shortens afterMnemonic = some (values, next) ∧
          reading = (gather values).map fun values => .bytes (values.map Int.ofNat) := by
  simp only [read, Option.bind_eq_bind, Option.bind_eq_some_iff, Prod.exists, Option.some.injEq,
    Prod.mk.injEq]
  constructor
  · intro found
    obtain ⟨afterMnemonic, mnemonic, values, final, found, rfl, rfl⟩ := found
    exact ⟨afterMnemonic, values, mnemonic, found, rfl⟩
  · intro found
    obtain ⟨afterMnemonic, values, mnemonic, found, rfl⟩ := found
    exact ⟨afterMnemonic, mnemonic, values, next, found, rfl, rfl⟩

theorem read_words_iff :
    words.read cursor = some (reading, next) ↔
      ∃ afterMnemonic values, keyword "DW" cursor = some afterMnemonic ∧
        listOf address address_shortens afterMnemonic = some (values, next) ∧
          reading = (gather values).map .words := by
  simp only [read, Option.bind_eq_bind, Option.bind_eq_some_iff, Prod.exists, Option.some.injEq,
    Prod.mk.injEq]
  constructor
  · intro found
    obtain ⟨afterMnemonic, mnemonic, values, final, found, rfl, rfl⟩ := found
    exact ⟨afterMnemonic, values, mnemonic, found, rfl⟩
  · intro found
    obtain ⟨afterMnemonic, values, mnemonic, found, rfl⟩ := found
    exact ⟨afterMnemonic, mnemonic, values, next, found, rfl, rfl⟩

end Production

end Chip8.Assembly
