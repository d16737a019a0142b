import Chip8.Assembly.Cursor
import Chip8.Assembly.Error
import Chip8.Text.WordCharacter

namespace Chip8.Assembly.Cursor

/-! The tokens of the assembler. Each reader first skips blanks and comments. -/

/-- The capital that a character stands for in a keyword: besides the small letters these are the
    long s and the dotless i. -/
def capital (character : Char) : Char :=
  if character = 'ſ' then 'S' else if character = 'ı' then 'I' else character.toUpper

/-- A keyword must stand apart from these on both sides. -/
def clingsToKeyword (character : Char) : Bool :=
  let upper := capital character
  upper.isUpper || upper.isDigit || upper == '_' || upper == '$'

def letters : List Char → Cursor → Option Cursor
  | [], cursor => some cursor
  | letter :: more, cursor => do
      let (_, next) ← cursor.eat (capital · == letter)
      letters more next

def keyword (word : String) (cursor : Cursor) : Option Cursor :=
  let start := cursor.skip
  if start.last.any clingsToKeyword then none
  else do
    let next ← letters word.toList start
    if next.rest.head?.any clingsToKeyword then none else some next

theorem letters_rest_length {word : List Char} {cursor next : Cursor}
    (spelled : letters word cursor = some next) :
    next.rest.length + word.length = cursor.rest.length := by
  induction word generalizing cursor with
  | nil =>
      cases spelled
      rfl
  | cons letter more ih =>
      simp only [letters, Option.bind_eq_bind, Option.bind_eq_some_iff, Prod.exists] at spelled
      obtain ⟨character, after, eaten, spelled⟩ := spelled
      have shorter := ih spelled
      rw [eat_rest eaten, List.length_cons, List.length_cons]
      omega

theorem keyword_rest_length_le {word : String} {cursor next : Cursor}
    (accepted : keyword word cursor = some next) :
    next.rest.length + word.toList.length ≤ cursor.rest.length := by
  simp only [keyword] at accepted
  split at accepted
  · contradiction
  · simp only [Option.bind_eq_bind, Option.bind_eq_some_iff] at accepted
    obtain ⟨after, spelled, apart⟩ := accepted
    split at apart
    · contradiction
    · cases apart
      have spelledLength := letters_rest_length spelled
      have skipped := skip_rest_length_le cursor
      omega

def symbol (character : Char) (cursor : Cursor) : Option Cursor := do
  let (_, next) ← cursor.skip.eat (· == character)
  some next

theorem symbol_rest_length_lt {character : Char} {cursor next : Cursor}
    (accepted : symbol character cursor = some next) :
    next.rest.length < cursor.rest.length := by
  simp only [symbol, Option.bind_eq_bind, Option.bind_eq_some_iff, Prod.exists,
    Option.some.injEq] at accepted
  obtain ⟨found, after, eaten, rfl⟩ := accepted
  have skipped := skip_rest_length_le cursor
  rw [eat_rest eaten, List.length_cons] at skipped
  omega

def isNameStart (character : Char) : Bool :=
  character.isAlpha || character == '_'

def isNamePart (character : Char) : Bool :=
  character.isAlphanum || character == '_'

def name (cursor : Cursor) : Option (String × Cursor) := do
  let (first, next) ← cursor.skip.eat isNameStart
  let (more, final) := span isNamePart next.last next.rest
  some (String.ofList (first :: more), final)

theorem name_shortens : Shortens name := by
  intro cursor found final accepted
  simp only [name, Option.bind_eq_bind, Option.bind_eq_some_iff, Prod.exists,
    Option.some.injEq, Prod.mk.injEq] at accepted
  obtain ⟨first, next, eaten, _, rfl⟩ := accepted
  have skipped := skip_rest_length_le cursor
  have spanned := congrArg List.length (span_rest isNamePart next.last next.rest)
  rw [eat_rest eaten, List.length_cons] at skipped
  rw [List.length_append] at spanned
  omega

def isDigitOf (base : Nat) (character : Char) : Bool :=
  (Numeral.digitValue? base character).isSome

/-- The number that digits spell, unless there are too many of them. -/
def spelled (base : Nat) (digits : List Nat) : Except Failure Nat :=
  if Numeral.Readable base digits then .ok (Numeral.value base digits)
  else .error (.digitLimit (some digits.length))

/-- One or more digits. The place after them is known even if they are too many. -/
def numeral (base : Nat) (cursor : Cursor) : Option (Except Failure Nat × Cursor) := do
  let (taken, next) ← cursor.eatSome (isDigitOf base)
  some (spelled base (taken.filterMap (Numeral.digitValue? base)), next)

theorem numeral_shortens (base : Nat) : Shortens (numeral base) := by
  intro cursor value next accepted
  simp only [numeral, Option.bind_eq_bind, Option.bind_eq_some_iff, Prod.exists,
    Option.some.injEq, Prod.mk.injEq] at accepted
  obtain ⟨taken, after, eaten, _, rfl⟩ := accepted
  exact eatSome_rest_length_lt eaten

/-- Digits after a zero and a base mark. -/
def marked (base : Nat) (isMark : Char → Bool) (cursor : Cursor) :
    Option (Except Failure Nat × Cursor) := do
  let (_, afterZero) ← cursor.eat (· == '0')
  let (_, afterMark) ← afterZero.eat isMark
  numeral base afterMark

theorem marked_shortens (base : Nat) (isMark : Char → Bool) : Shortens (marked base isMark) := by
  intro cursor value next accepted
  simp only [marked, Option.bind_eq_bind, Option.bind_eq_some_iff, Prod.exists] at accepted
  obtain ⟨zero, afterZero, zeroEaten, mark, afterMark, markEaten, accepted⟩ := accepted
  have shorter := numeral_shortens base afterMark value next accepted
  rw [eat_rest zeroEaten, List.length_cons, eat_rest markEaten, List.length_cons]
  omega

/-- Where no digit follows a base mark, the zero before it is the number. -/
def number (cursor : Cursor) : Option (Except Failure Nat × Cursor) :=
  let start := cursor.skip
  marked 16 (fun mark => mark == 'x' || mark == 'X') start <|>
    marked 2 (fun mark => mark == 'b' || mark == 'B') start <|>
    numeral 10 start

theorem number_shortens : Shortens number := by
  intro cursor value next accepted
  simp only [number, Option.orElse_eq_orElse, Option.orElse_eq_or, Option.or_eq_some_iff]
    at accepted
  have skipped := skip_rest_length_le cursor
  rcases accepted with marked | ⟨_, marked | ⟨_, plain⟩⟩
  · have shorter := marked_shortens _ _ _ _ _ marked
    omega
  · have shorter := marked_shortens _ _ _ _ _ marked
    omega
  · have shorter := numeral_shortens _ _ _ _ plain
    omega

/-- A register is a V and a hexadecimal digit that ends a word. -/
def register (cursor : Cursor) : Option (Nat × Cursor) := do
  let (_, afterV) ← cursor.skip.eat (capital · == 'V')
  let (digit, next) ← afterV.eat (isDigitOf 16)
  if next.rest.head?.any Text.isWordCharacter then none
  else some ((Numeral.digitValue? 16 digit).getD 0, next)

theorem register_shortens : Shortens register := by
  intro cursor value final accepted
  simp only [register, Option.bind_eq_bind, Option.bind_eq_some_iff, Prod.exists] at accepted
  obtain ⟨letter, afterV, letterEaten, digit, next, digitEaten, bounded⟩ := accepted
  split at bounded
  · contradiction
  · cases bounded
    have skipped := skip_rest_length_le cursor
    rw [eat_rest letterEaten, List.length_cons, eat_rest digitEaten, List.length_cons] at skipped
    omega

end Chip8.Assembly.Cursor
