import Chip8.Proofs.Assembly.Passage

namespace Chip8.Assembly

/-! One text in two renderings: the second may be laid out in another way, or spelled in capitals,
    or end or go on behind the place up to which the first is read. Which of these it is does not
    matter to the readers. Both renderings are read character by character in step, and what is
    found in the one is found in the other. -/

def respell (spell : Char → Char) (name : String) : String :=
  String.ofList (name.toList.map spell)

def Operand.respelled (spell : Char → Char) : Operand → Operand
  | .number value => .number value
  | .label name => .label (respell spell name)

def Item.respelled (spell : Char → Char) : Item → Item
  | .label name => .label (respell spell name)
  | .instruction opcode operands => .instruction opcode (operands.map (·.respelled spell))
  | .bytes values => .bytes values
  | .words values => .words (values.map (·.respelled spell))

@[simp] theorem respell_id (name : String) : respell id name = name := by
  simp [respell]

@[simp] theorem Operand.respelled_id (operand : Operand) : operand.respelled id = operand := by
  cases operand with
  | number value => rfl
  | label name => rw [respelled, respell_id]

@[simp] theorem Item.respelled_id (item : Item) : item.respelled id = item := by
  cases item with
  | label name => rw [respelled, respell_id]
  | instruction opcode operands => simp [respelled]
  | bytes values => rfl
  | words values => simp [respelled]

theorem Item.map_respelled_id (items : List Item) : items.map (·.respelled id) = items := by
  simp

theorem Operand.map_respelled_id (operand : Except Failure Operand) :
    operand.map (·.respelled id) = operand := by
  cases operand with
  | error reason => rfl
  | ok operand => exact congrArg Except.ok operand.respelled_id

theorem Reading.map_respelled_id (reading : Reading) :
    reading.map (·.respelled id) = reading := by
  cases reading with
  | error reason => rfl
  | ok item => exact congrArg Except.ok item.respelled_id

theorem Reading.all_respelled_id (readings : List Reading) :
    readings.map (·.map (·.respelled id)) = readings :=
  (List.map_congr_left fun reading _ => reading.map_respelled_id).trans (List.map_id _)

/-- Items that are respelled are readings that are respelled. -/
theorem Reading.map_respelled_ok (spell : Char → Char) (items : List Item) :
    ((items.map .ok : List Reading).map (·.map (·.respelled spell))) =
      (items.map (·.respelled spell)).map .ok := by
  simp [Except.map]

namespace Cursor

/-- A kind of characters that a token may consist of, small letters being of the kind whenever the
    capitals are. -/
structure Plain (kind : Char → Bool) : Prop where
  ink : ∀ character, kind character = true → isInk character = true
  upper : ∀ character, kind character.toUpper = kind character

theorem toUpper_congr {α : Type} {property : Char → α}
    (checked : ∀ code < 128, property (Char.ofNat code).toUpper = property (Char.ofNat code))
    (character : Char) : property character.toUpper = property character := by
  by_cases ascii : character.toNat < 128
  · exact forall_ascii (fun character => property character.toUpper = property character)
      checked character ascii
  · rw [toUpper_of_large ascii]

/-- Nothing but these is no ink. -/
def inkless : List Char := [' ', '\n', '\r', '\t', ';', '/']

theorem mem_inkless {character : Char} (blank : isInk character = false) :
    character ∈ inkless := by
  simpa [isInk, isBlank, inkless, or_iff_not_imp_left] using blank

theorem plain_of_table {kind : Char → Bool}
    (apart : inkless.any kind = false)
    (checked : ∀ code < 128, kind (Char.ofNat code).toUpper = kind (Char.ofNat code)) :
    Plain kind where
  ink character fits := by
    by_contra blank
    have listed := mem_inkless (eq_false_of_ne_true blank)
    exact List.any_eq_false.mp apart character listed fits
  upper := toUpper_congr checked

theorem plain_isNameStart : Plain isNameStart :=
  plain_of_table (by decide +kernel) (by decide +kernel)

theorem plain_isNamePart : Plain isNamePart :=
  plain_of_table (by decide +kernel) (by decide +kernel)

theorem plain_clings : Plain clingsToKeyword :=
  plain_of_table (by decide +kernel) (by decide +kernel)

theorem plain_isWordCharacter : Plain Text.isWordCharacter :=
  plain_of_table (by decide +kernel) (by decide +kernel)

/-- The bases in which numbers are written. -/
def bases : List Nat := [2, 10, 16]

theorem digitValue?_toUpper {base : Nat} (known : base ∈ bases) (character : Char) :
    Numeral.digitValue? base character.toUpper = Numeral.digitValue? base character := by
  have fromTable : ∀ base ∈ bases, ∀ code < 128,
      Numeral.digitValue? base (Char.ofNat code).toUpper =
        Numeral.digitValue? base (Char.ofNat code) := by decide +kernel
  exact toUpper_congr (fromTable base known) character

theorem plain_digit {base : Nat} (known : base ∈ bases) : Plain (isDigitOf base) where
  ink character digit := by
    have fromTable : ∀ code < 128, ∀ base ∈ bases,
        isDigitOf base (Char.ofNat code) = true → isInk (Char.ofNat code) = true := by
      decide +kernel
    exact forall_ascii (fun character => ∀ base ∈ bases, isDigitOf base character = true →
      isInk character = true) fromTable character (isDigitOf_ascii digit) base known digit
  upper character := by rw [isDigitOf, isDigitOf, digitValue?_toUpper known]

/-- Single characters that stand for themselves. -/
def marks : List Char := [',', ':', '[', ']', '0']

theorem plain_mark {mark : Char} (listed : mark ∈ marks) : Plain (· == mark) := by
  simp only [marks, List.mem_cons, List.not_mem_nil, or_false] at listed
  rcases listed with rfl | rfl | rfl | rfl | rfl <;>
    exact plain_of_table (by decide) (by decide +kernel)

theorem capital_toUpper (character : Char) : capital character.toUpper = capital character :=
  toUpper_congr (by decide +kernel) character

theorem isInk_of_isInk_capital {character : Char} (ink : isInk (capital character) = true) :
    isInk character = true := by
  by_cases ascii : character.toNat < 128
  · exact forall_ascii (fun character => isInk (capital character) = true → isInk character = true)
      (by decide +kernel) character ascii ink
  · by_contra blank
    have small : inkless.all (·.toNat < 128) = true := by decide
    have listed := mem_inkless (eq_false_of_ne_true blank)
    exact ascii (of_decide_eq_true (List.all_eq_true.mp small character listed))

theorem plain_capital {letter : Char} (ink : isInk letter = true) :
    Plain (capital · == letter) where
  ink character fits := isInk_of_isInk_capital (by rwa [beq_iff_eq.mp fits])
  upper character := by rw [capital_toUpper]

/-- A place in the one text and the place `Like` it in the other. Up to a place that is `Within` the
    part that the other text has, blanks are skipped in both and characters eaten in both; and the
    other text has nothing to eat where the first has nothing of that kind. -/
structure Rendering (spell : Char → Char) (Within : Cursor → Prop)
    (Like : Cursor → Cursor → Prop) : Prop where
  recased : ∀ character, spell character = character ∨ spell character = character.toUpper
  skip_within : ∀ cursor : Cursor, cursor.skip.rest ≠ [] → Within cursor.skip → Within cursor
  eat_within : ∀ last character rest, isInk character = true → Within ⟨some character, rest⟩ →
    Within ⟨last, character :: rest⟩
  last_like : ∀ cursor copy, Like cursor copy →
    cursor.last.any clingsToKeyword = copy.last.any clingsToKeyword
  skip_like : ∀ cursor copy, Like cursor copy → cursor.skip.rest ≠ [] → Within cursor.skip →
    Like cursor.skip copy.skip
  eat_like : ∀ last character rest copy, Like ⟨last, character :: rest⟩ copy →
    isInk character = true → Within ⟨some character, rest⟩ →
      ∃ more, copy.rest = spell character :: more ∧
        Like ⟨some character, rest⟩ ⟨some (spell character), more⟩
  eat_back : ∀ cursor copy character more, Like cursor copy → copy.rest = character :: more →
    isInk character = true → ∃ original rest, cursor.rest = original :: rest ∧
      spell original = character ∧ Like ⟨some original, rest⟩ ⟨some character, more⟩

/-- What is read from the one place to the other can be read from each copy of the place, in the way
    that is said. -/
structure Repeats (Within : Cursor → Prop) (Like : Cursor → Cursor → Prop) (cursor next : Cursor)
    (way : Cursor → Cursor → Prop) : Prop where
  within : Within next → Within cursor
  copies : Within next → ∀ copy, Like cursor copy → ∃ after, way copy after ∧ Like next after

section Reading

variable {spell : Char → Char} {Within : Cursor → Prop} {Like : Cursor → Cursor → Prop}
  {cursor middle next : Cursor} {way first second : Cursor → Cursor → Prop}

theorem Repeats.refl (cursor : Cursor) : Repeats Within Like cursor cursor Eq where
  within := id
  copies _ copy like := ⟨copy, rfl, like⟩

theorem Repeats.trans (earlier : Repeats Within Like cursor middle first)
    (later : Repeats Within Like middle next second) :
    Repeats Within Like cursor next fun copy after =>
      ∃ between, first copy between ∧ second between after where
  within inside := earlier.within (later.within inside)
  copies inside copy like := by
    obtain ⟨between, reached, like⟩ := earlier.copies (later.within inside) copy like
    obtain ⟨after, further, like⟩ := later.copies inside between like
    exact ⟨after, ⟨between, reached, further⟩, like⟩

theorem Repeats.imp (repeats : Repeats Within Like cursor next first)
    (weaker : ∀ copy after, first copy after → second copy after) :
    Repeats Within Like cursor next second where
  within := repeats.within
  copies inside copy like := by
    obtain ⟨after, reached, like⟩ := repeats.copies inside copy like
    exact ⟨after, weaker copy after reached, like⟩

/-- What holds of all copies of the last place. -/
theorem Repeats.and {property : Cursor → Prop} (repeats : Repeats Within Like cursor next way)
    (holds : ∀ after, Like next after → property after) :
    Repeats Within Like cursor next fun copy after => way copy after ∧ property after where
  within := repeats.within
  copies inside copy like := by
    obtain ⟨after, reached, like⟩ := repeats.copies inside copy like
    exact ⟨after, ⟨reached, holds after like⟩, like⟩

/-- What holds of all copies of the first place. -/
theorem Repeats.given {property : Cursor → Prop} (holds : ∀ copy, Like cursor copy → property copy)
    (repeats : Repeats Within Like cursor next way) :
    Repeats Within Like cursor next fun copy after => property copy ∧ way copy after where
  within := repeats.within
  copies inside copy like := by
    obtain ⟨after, reached, like'⟩ := repeats.copies inside copy like
    exact ⟨after, ⟨holds copy like, reached⟩, like'⟩

/-- A word that can be read: it has letters, and none of them is skipped. -/
def Legible (word : String) : Prop :=
  word.toList ≠ [] ∧ word.toList.all isInk = true

instance (word : String) : Decidable (Legible word) := by
  unfold Legible
  infer_instance

def LegibleSlot : Slot → Prop
  | .operand _ => True
  | .fixed words => ∀ word ∈ words, Legible word

instance : DecidablePred LegibleSlot
  | .operand _ => inferInstanceAs (Decidable True)
  | .fixed words => inferInstanceAs (Decidable (∀ word ∈ words, Legible word))

theorem legible_form (opcode : Opcode) : ∀ shape ∈ opcode.form.slots, LegibleSlot shape := by
  cases opcode with
  | draw => decide
  | _ op => cases op <;> decide

namespace Rendering

variable (rendering : Rendering spell Within Like) {kind : Char → Bool}
include rendering

theorem kind_spell (plain : Plain kind) (character : Char) :
    kind (spell character) = kind character := by
  rcases rendering.recased character with same | upper
  · rw [same]
  · rw [upper, plain.upper]

theorem digitValue?_spell {base : Nat} (known : base ∈ bases) (character : Char) :
    Numeral.digitValue? base (spell character) = Numeral.digitValue? base character := by
  rcases rendering.recased character with same | upper
  · rw [same]
  · rw [upper, digitValue?_toUpper known]

/-- Where the one text has nothing of a kind, the other has nothing either. -/
theorem head?_absent (plain : Plain kind) {copy : Cursor} (like : Like cursor copy)
    (absent : cursor.rest.head?.any kind = false) : copy.rest.head?.any kind = false := by
  cases remaining : copy.rest with
  | nil => rfl
  | cons character more =>
      by_contra present
      have fits : kind character = true := by simpa using present
      obtain ⟨original, rest, whole, rfl, _⟩ :=
        rendering.eat_back _ _ _ _ like remaining (plain.ink _ fits)
      rw [rendering.kind_spell plain] at fits
      simp [whole, fits] at absent

/-- What the copy has of a kind stands in the original as well. -/
theorem eat_original (plain : Plain kind) {copy after : Cursor} {character : Char}
    (like : Like cursor copy) (eaten : copy.eat kind = some (character, after)) :
    ∃ original next, cursor.eat kind = some (original, next) ∧ Like next after := by
  obtain ⟨fits, whole, last⟩ := eat_eq_some_iff.mp eaten
  obtain ⟨original, rest, here, rfl, like⟩ :=
    rendering.eat_back _ _ _ _ like whole (plain.ink _ fits)
  rw [rendering.kind_spell plain] at fits
  refine ⟨original, ⟨some original, rest⟩, eat_eq_some_iff.mpr ⟨fits, here, rfl⟩, ?_⟩
  rw [← last] at like
  exact like

theorem skip (inside : cursor.skip.rest ≠ []) :
    Repeats Within Like cursor cursor.skip fun copy after => copy.skip = after where
  within := rendering.skip_within cursor inside
  copies within copy like := ⟨_, rfl, rendering.skip_like cursor copy like inside within⟩

theorem eat (plain : Plain kind) {character : Char}
    (eaten : cursor.eat kind = some (character, next)) :
    Repeats Within Like cursor next fun copy after =>
      copy.eat kind = some (spell character, after) := by
  obtain ⟨fits, whole, last⟩ := eat_eq_some_iff.mp eaten
  obtain ⟨before, rest⟩ := cursor
  obtain ⟨after, more⟩ := next
  obtain rfl : after = some character := last
  obtain rfl : rest = character :: more := whole
  have ink := plain.ink character fits
  refine ⟨rendering.eat_within _ _ _ ink, fun within copy like => ?_⟩
  obtain ⟨remaining, here, like⟩ := rendering.eat_like _ _ _ _ like ink within
  refine ⟨_, eat_eq_some_iff.mpr ⟨?_, here, rfl⟩, like⟩
  rw [rendering.kind_spell plain, fits]

theorem letters {word : List Char} (inked : ∀ letter ∈ word, isInk letter = true)
    (spelled : letters word cursor = some next) :
    Repeats Within Like cursor next fun copy after => Cursor.letters word copy = some after := by
  induction word generalizing cursor with
  | nil =>
      cases spelled
      exact (Repeats.refl _).imp fun copy after same => congrArg some same
  | cons letter more ih =>
      obtain ⟨first, inked⟩ := List.forall_mem_cons.mp inked
      obtain ⟨⟨character, after⟩, eaten, spelled⟩ := Option.bind_eq_some_iff.mp spelled
      refine ((rendering.eat (plain_capital first) eaten).trans (ih inked spelled)).imp ?_
      intro copy after reread
      obtain ⟨between, here, further⟩ := reread
      exact Option.bind_eq_some_iff.mpr ⟨_, here, further⟩

theorem keyword {word : String} (legible : Legible word) (read : keyword word cursor = some next) :
    Repeats Within Like cursor next fun copy after => Cursor.keyword word copy = some after := by
  obtain ⟨apart, spelled, ending⟩ := keyword_eq_some_iff.mp read
  have inside : cursor.skip.rest ≠ [] := by
    intro finished
    have length := letters_rest_length spelled
    rw [finished, List.length_nil] at length
    exact legible.1 (List.length_eq_zero_iff.mp (by omega))
  have spelling := rendering.letters (List.all_eq_true.mp legible.2) spelled
  refine ⟨fun within => rendering.skip_within cursor inside (spelling.within within), ?_⟩
  intro within copy like
  have start := rendering.skip_like cursor copy like inside (spelling.within within)
  obtain ⟨after, again, like⟩ := spelling.copies within _ start
  refine ⟨after, keyword_eq_some_iff.mpr ⟨?_, again, ?_⟩, like⟩
  · rw [← rendering.last_like _ _ start, apart]
  · exact rendering.head?_absent plain_clings like ending

theorem symbol {character : Char} (plain : Plain (· == character))
    (read : symbol character cursor = some next) :
    Repeats Within Like cursor next fun copy after =>
      Cursor.symbol character copy = some after := by
  obtain ⟨⟨found, after⟩, eaten, same⟩ := Option.bind_eq_some_iff.mp read
  cases same
  have inside : cursor.skip.rest ≠ [] := by simp [eat_rest eaten]
  refine ((rendering.skip inside).trans (rendering.eat plain eaten)).imp ?_
  intro copy after reread
  obtain ⟨_, rfl, here⟩ := reread
  exact Option.bind_eq_some_iff.mpr ⟨_, here, rfl⟩

theorem span (plain : Plain kind) {taken : List Char}
    (read : span kind cursor.last cursor.rest = (taken, next)) :
    Repeats Within Like cursor next fun copy after =>
      Cursor.span kind copy.last copy.rest = (taken.map spell, after) := by
  obtain ⟨whole, fits, stops, last⟩ := span_eq_iff.mp read
  clear read
  induction taken generalizing cursor with
  | nil =>
      obtain rfl : cursor = next := by
        cases cursor
        cases next
        exact Cursor.mk.injEq .. ▸ ⟨last.symm, whole⟩
      refine ⟨id, fun _ copy like => ⟨copy, span_eq_iff.mpr ⟨rfl, by simp, ?_, rfl⟩, like⟩⟩
      exact rendering.head?_absent plain like stops
  | cons character taken ih =>
      obtain ⟨first, fits⟩ := List.forall_mem_cons.mp fits
      rw [getLast?_cons_or] at last
      have eaten : cursor.eat kind = some (character, ⟨some character, taken ++ next.rest⟩) :=
        eat_eq_some_iff.mpr ⟨first, whole, rfl⟩
      refine ((rendering.eat plain eaten).trans (ih rfl fits last)).imp ?_
      intro copy after reread
      obtain ⟨between, here, further⟩ := reread
      obtain ⟨first, whole, last⟩ := eat_eq_some_iff.mp here
      obtain ⟨rest, fits, stops, final⟩ := span_eq_iff.mp further
      refine span_eq_iff.mpr ⟨by rw [whole, rest]; rfl, ?_, stops, ?_⟩
      · exact List.forall_mem_cons.mpr ⟨first, fits⟩
      · rw [final, last, List.map_cons, getLast?_cons_or]

theorem name {text : String} (read : name cursor = some (text, next)) :
    Repeats Within Like cursor next fun copy after =>
      Cursor.name copy = some (respell spell text, after) := by
  obtain ⟨⟨first, middle⟩, eaten, read⟩ := Option.bind_eq_some_iff.mp read
  cases spanned : Cursor.span isNamePart middle.last middle.rest with
  | mk more final =>
      simp only [spanned, Option.some.injEq, Prod.mk.injEq] at read
      obtain ⟨rfl, rfl⟩ := read
      have inside : cursor.skip.rest ≠ [] := by simp [eat_rest eaten]
      refine (((rendering.skip inside).trans (rendering.eat plain_isNameStart eaten)).trans
        (rendering.span plain_isNamePart spanned)).imp ?_
      intro copy after reread
      obtain ⟨between, ⟨_, rfl, here⟩, further⟩ := reread
      refine Option.bind_eq_some_iff.mpr ⟨_, here, ?_⟩
      simp only [further, respell, String.toList_ofList, List.map_cons]

theorem numeral {base : Nat} {value : Except Failure Nat} (known : base ∈ bases)
    (read : numeral base cursor = some (value, next)) :
    Repeats Within Like cursor next fun copy after =>
      Cursor.numeral base copy = some (value, after) := by
  obtain ⟨taken, nonempty, whole, fits, stops, rfl, last⟩ := numeral_eq_some_iff.mp read
  have spanned := span_eq_iff.mpr ⟨whole, fits, stops, last⟩
  refine (rendering.span (plain_digit known) spanned).imp fun copy after again => ?_
  obtain ⟨whole, fits, stops, last⟩ := span_eq_iff.mp again
  refine numeral_eq_some_iff.mpr ⟨_, by simpa using nonempty, whole, fits, stops, ?_, last⟩
  have digits : Numeral.digitValue? base ∘ spell = Numeral.digitValue? base :=
    funext (rendering.digitValue?_spell known)
  rw [List.filterMap_map, digits]

/-- A number with a base mark, the bases having marks of their own. -/
theorem marked {base : Nat} {value : Except Failure Nat} {isMark : Char → Bool}
    (known : base ∈ bases) (plain : Plain isMark) (read : marked base isMark cursor = some (value, next)) :
    Repeats Within Like cursor next fun copy after =>
      Cursor.marked base isMark copy = some (value, after) := by
  obtain ⟨_, _, _, _, zeroEaten, markEaten, read⟩ := marked_eq_some_iff.mp read
  refine ((rendering.eat (plain_mark (by decide)) zeroEaten).trans
    ((rendering.eat plain markEaten).trans (rendering.numeral known read))).imp ?_
  intro copy after reread
  obtain ⟨_, here, _, further, last⟩ := reread
  exact marked_eq_some_iff.mpr ⟨_, _, _, _, here, further, last⟩

/-- Where the one text has no marked number, the other has none. -/
theorem marked_absent {base : Nat} {isMark : Char → Bool} (known : base ∈ bases)
    (plain : Plain isMark) {copy : Cursor} (like : Like cursor copy)
    (absent : Cursor.marked base isMark cursor = none) : Cursor.marked base isMark copy = none := by
  rw [Option.eq_none_iff_forall_ne_some]
  intro found read
  obtain ⟨_, _, _, _, zeroEaten, markEaten, read⟩ := marked_eq_some_iff.mp read
  obtain ⟨_, _, zeroThere, like⟩ := rendering.eat_original (plain_mark (by decide)) like zeroEaten
  obtain ⟨_, there, markThere, like⟩ := rendering.eat_original plain like markEaten
  have none : Cursor.numeral base there = none := by
    simpa [Cursor.marked, zeroThere, markThere] using absent
  have nothing := numeral_eq_none_iff.mpr
    (rendering.head?_absent (plain_digit known) like (numeral_eq_none_iff.mp none))
  cases nothing.symm.trans read

theorem number {value : Except Failure Nat} (read : number cursor = some (value, next)) :
    Repeats Within Like cursor next fun copy after =>
      Cursor.number copy = some (value, after) := by
  have hexadecimal : Plain fun mark => mark == 'x' || mark == 'X' :=
    plain_of_table (by decide) (by decide +kernel)
  have binary : Plain fun mark => mark == 'b' || mark == 'B' :=
    plain_of_table (by decide) (by decide +kernel)
  obtain ⟨character, here, _⟩ := number_opens read
  have begun := rendering.skip (inside_of_ahead here)
  rcases number_eq_some_iff.mp read with marked | ⟨none16, marked | ⟨none2, plain⟩⟩
  · refine (begun.trans (rendering.marked (by decide) hexadecimal marked)).imp ?_
    intro copy after reread
    obtain ⟨_, rfl, here⟩ := reread
    exact number_eq_some_iff.mpr (Or.inl here)
  · refine (begun.trans ((rendering.marked (by decide) binary marked).given fun copy like =>
      rendering.marked_absent (by decide) hexadecimal like none16)).imp ?_
    intro copy after reread
    obtain ⟨_, rfl, nothing, here⟩ := reread
    exact number_eq_some_iff.mpr (Or.inr ⟨nothing, Or.inl here⟩)
  · refine (begun.trans (((rendering.numeral (by decide) plain).given fun copy like =>
      rendering.marked_absent (by decide) binary like none2).given fun copy like =>
        rendering.marked_absent (by decide) hexadecimal like none16)).imp ?_
    intro copy after reread
    obtain ⟨_, rfl, nothing, nothingElse, here⟩ := reread
    exact number_eq_some_iff.mpr (Or.inr ⟨nothing, Or.inr ⟨nothingElse, here⟩⟩)

theorem register {value : Nat} (read : register cursor = some (value, next)) :
    Repeats Within Like cursor next fun copy after =>
      Cursor.register copy = some (value, after) := by
  obtain ⟨letter, digit, whole, isV, isDigit, apart, rfl, last⟩ := register_eq_some_iff.mp read
  have letterEaten : cursor.skip.eat (capital · == 'V') =
      some (letter, ⟨some letter, digit :: next.rest⟩) :=
    eat_eq_some_iff.mpr ⟨beq_iff_eq.mpr isV, whole, rfl⟩
  have digitEaten : Cursor.eat (isDigitOf 16) ⟨some letter, digit :: next.rest⟩ =
      some (digit, next) :=
    eat_eq_some_iff.mpr ⟨isDigit, rfl, last⟩
  have known : 16 ∈ bases := by decide
  have inside : cursor.skip.rest ≠ [] := by simp [whole]
  refine (((rendering.skip inside).trans ((rendering.eat (plain_capital (by decide))
    letterEaten).trans (rendering.eat (plain_digit known) digitEaten))).and
      fun _ like => rendering.head?_absent plain_isWordCharacter like apart).imp ?_
  intro copy after reread
  obtain ⟨⟨_, rfl, _, letterHere, digitHere⟩, apart⟩ := reread
  obtain ⟨isV, whole, _⟩ := eat_eq_some_iff.mp letterHere
  obtain ⟨isDigit, rest, last⟩ := eat_eq_some_iff.mp digitHere
  refine register_eq_some_iff.mpr ⟨_, _, by rw [whole, rest], beq_iff_eq.mp isV, isDigit, apart,
    ?_, last⟩
  rw [rendering.digitValue?_spell known]

theorem literal {operand : Except Failure Operand}
    (read : literal cursor = some (operand, next)) :
    Repeats Within Like cursor next fun copy after =>
      Cursor.literal copy = some (operand.map (·.respelled spell), after) := by
  obtain ⟨reading, found, rfl⟩ := literal_eq_some_iff.mp read
  refine (rendering.number found).imp fun copy after here => ?_
  refine literal_eq_some_iff.mpr ⟨reading, here, ?_⟩
  cases reading <;> rfl

theorem address {operand : Except Failure Operand}
    (read : address cursor = some (operand, next)) :
    Repeats Within Like cursor next fun copy after =>
      Cursor.address copy = some (operand.map (·.respelled spell), after) := by
  rcases address_eq_some_iff.mp read with found | ⟨_, text, named, rfl⟩
  · refine (rendering.literal found).imp fun copy after here => ?_
    exact address_eq_some_iff.mpr (Or.inl here)
  · refine (rendering.name named).imp fun copy after here => ?_
    exact address_eq_some_iff.mpr (Or.inr ⟨number_eq_none_of_name here, _, here, rfl⟩)

theorem operand (field : Field) {value : Except Failure Operand}
    (read : operand field cursor = some (value, next)) :
    Repeats Within Like cursor next fun copy after =>
      Cursor.operand field copy = some (value.map (·.respelled spell), after) := by
  cases field with
  | addr => exact rendering.address read
  | x | y =>
      obtain ⟨⟨value, final⟩, found, same⟩ := Option.map_eq_some_iff.mp read
      cases same
      refine (rendering.register found).imp fun copy after here => ?_
      exact Option.map_eq_some_iff.mpr ⟨_, here, rfl⟩
  | n | byte => exact rendering.literal read

theorem fixedWord {word : String} (legible : Legible word)
    (read : fixedWord word cursor = some next) :
    Repeats Within Like cursor next fun copy after =>
      Cursor.fixedWord word copy = some after := by
  by_cases opening : word = "["
  · simp only [Cursor.fixedWord, if_pos opening] at read ⊢
    exact rendering.symbol (plain_mark (by decide)) read
  · by_cases closing : word = "]"
    · simp only [Cursor.fixedWord, if_neg opening, if_pos closing] at read ⊢
      exact rendering.symbol (plain_mark (by decide)) read
    · simp only [Cursor.fixedWord, if_neg opening, if_neg closing] at read ⊢
      exact rendering.keyword legible read

theorem fixedWords {words : List String} (legible : ∀ word ∈ words, Legible word)
    (read : fixedWords words cursor = some next) :
    Repeats Within Like cursor next fun copy after =>
      Cursor.fixedWords words copy = some after := by
  induction words generalizing cursor with
  | nil =>
      cases read
      exact (Repeats.refl _).imp fun copy after same => congrArg some same
  | cons word more ih =>
      obtain ⟨first, legible⟩ := List.forall_mem_cons.mp legible
      obtain ⟨middle, here, further⟩ := Option.bind_eq_some_iff.mp read
      refine ((rendering.fixedWord first here).trans (ih legible further)).imp ?_
      intro copy after reread
      obtain ⟨between, here, further⟩ := reread
      exact Option.bind_eq_some_iff.mpr ⟨_, here, further⟩

theorem slot {shape : Slot} {operands : List (Except Failure Operand)}
    (legible : LegibleSlot shape)
    (read : slot shape cursor = some (operands, next)) :
    Repeats Within Like cursor next fun copy after =>
      Cursor.slot shape copy = some (operands.map (·.map (·.respelled spell)), after) := by
  cases shape with
  | operand field =>
      obtain ⟨⟨value, final⟩, found, same⟩ := Option.map_eq_some_iff.mp read
      cases same
      refine (rendering.operand field found).imp fun copy after here => ?_
      exact Option.map_eq_some_iff.mpr ⟨_, here, rfl⟩
  | fixed words =>
      obtain ⟨final, found, same⟩ := Option.map_eq_some_iff.mp read
      cases same
      refine (rendering.fixedWords legible found).imp fun copy after here => ?_
      exact Option.map_eq_some_iff.mpr ⟨_, here, rfl⟩

theorem comma (read : Cursor.symbol ',' cursor = some next) :
    Repeats Within Like cursor next fun copy after => Cursor.symbol ',' copy = some after :=
  rendering.symbol (plain_mark (by decide)) read

theorem furtherSlots {shapes : List Slot} {operands : List (Except Failure Operand)}
    (legible : ∀ shape ∈ shapes, LegibleSlot shape)
    (read : furtherSlots shapes cursor = some (operands, next)) :
    Repeats Within Like cursor next fun copy after =>
      Cursor.furtherSlots shapes copy = some (operands.map (·.map (·.respelled spell)), after) := by
  induction shapes generalizing cursor operands with
  | nil =>
      cases read
      refine (Repeats.refl _).imp fun copy after same => ?_
      rw [same]
      rfl
  | cons shape more ih =>
      obtain ⟨first, legible⟩ := List.forall_mem_cons.mp legible
      obtain ⟨_, _, _, _, comma, filled, further, rfl⟩ := furtherSlots_cons_eq_some_iff.mp read
      refine ((rendering.comma comma).trans ((rendering.slot first filled).trans
        (ih legible further))).imp ?_
      intro copy after reread
      obtain ⟨_, comma, _, filled, further⟩ := reread
      exact furtherSlots_cons_eq_some_iff.mpr
        ⟨_, _, _, _, comma, filled, further, List.map_append⟩

theorem slots {shapes : List Slot} {operands : List (Except Failure Operand)}
    (legible : ∀ shape ∈ shapes, LegibleSlot shape)
    (read : slots shapes cursor = some (operands, next)) :
    Repeats Within Like cursor next fun copy after =>
      Cursor.slots shapes copy = some (operands.map (·.map (·.respelled spell)), after) := by
  cases shapes with
  | nil =>
      cases read
      refine (Repeats.refl _).imp fun copy after same => ?_
      rw [same]
      rfl
  | cons shape more =>
      obtain ⟨first, legible⟩ := List.forall_mem_cons.mp legible
      obtain ⟨_, _, _, filled, further, rfl⟩ := slots_cons_eq_some_iff.mp read
      refine ((rendering.slot first filled).trans (rendering.furtherSlots legible further)).imp ?_
      intro copy after reread
      obtain ⟨_, filled, further⟩ := reread
      exact slots_cons_eq_some_iff.mpr ⟨_, _, _, filled, further, List.map_append⟩

/-! Readers that go on where a comma follows. The other text must not have one there. -/

variable {α : Type} {entry : Cursor → Option (α × Cursor)} {change : α → α}

theorem many (shortens : Shortens entry)
    (reread : ∀ cursor value next, entry cursor = some (value, next) →
      Repeats Within Like cursor next fun copy after => entry copy = some (change value, after))
    (cursor : Cursor) :
    let result := cursor.many (afterComma entry) (afterComma_shortens shortens)
    Repeats Within Like cursor result.2 fun copy after => after.ahead ≠ some ',' →
      copy.many (afterComma entry) (afterComma_shortens shortens) =
        (result.1.map change, after) := by
  fun_induction Cursor.many (afterComma entry) (afterComma_shortens shortens) cursor with
  | case1 cursor absent =>
      refine (Repeats.refl _).imp ?_
      intro copy after same quiet
      subst same
      exact many_of_none _ (afterComma_eq_none quiet)
  | case2 cursor value next found more final again ih =>
      obtain ⟨middle, comma, read⟩ := afterComma_eq_some_iff.mp found
      rw [again] at ih
      refine (((rendering.comma comma).trans (reread _ _ _ read)).trans ih).imp ?_
      intro copy after reread quiet
      obtain ⟨_, ⟨_, comma, read⟩, further⟩ := reread
      have kept := afterComma_eq_some_iff.mpr ⟨_, comma, read⟩
      rw [many_of_some _ kept, further quiet]
      rfl

theorem listOf {values : List α} (shortens : Shortens entry)
    (reread : ∀ cursor value next, entry cursor = some (value, next) →
      Repeats Within Like cursor next fun copy after => entry copy = some (change value, after))
    (read : listOf entry shortens cursor = some (values, next)) :
    Repeats Within Like cursor next fun copy after => after.ahead ≠ some ',' →
      Cursor.listOf entry shortens copy = some (values.map change, after) := by
  obtain ⟨first, middle, more, here, further, rfl⟩ := listOf_eq_some_iff.mp read
  have others := rendering.many shortens reread middle
  rw [further] at others
  refine ((reread _ _ _ here).trans others).imp ?_
  intro copy after reread quiet
  obtain ⟨_, here, further⟩ := reread
  exact listOf_eq_some_iff.mpr ⟨_, _, _, here, further quiet, rfl⟩

theorem label {reading : Reading} (read : label cursor = some (reading, next)) :
    Repeats Within Like cursor next fun copy after =>
      Cursor.label copy = some (reading.map (·.respelled spell), after) := by
  obtain ⟨text, middle, named, colon, rfl⟩ := label_eq_some_iff.mp read
  refine ((rendering.name named).trans
    (rendering.symbol (plain_mark (by decide)) colon)).imp ?_
  intro copy after reread
  obtain ⟨_, named, colon⟩ := reread
  exact label_eq_some_iff.mpr ⟨_, _, named, colon, rfl⟩

end Rendering

end Reading

end Cursor

end Chip8.Assembly
