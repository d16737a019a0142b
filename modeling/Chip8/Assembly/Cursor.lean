namespace Chip8.Assembly

/-! A place between two characters of a source text. A reader moves over what it accepts and hands
    on the new place; where it accepts nothing there is no new place. -/

structure Cursor where
  /-- The character just before the place. -/
  last : Option Char
  rest : List Char
  deriving DecidableEq, Repr

namespace Cursor

def start (text : List Char) : Cursor := ⟨none, text⟩

/-- One character of a kind. -/
def eat (kind : Char → Bool) (cursor : Cursor) : Option (Char × Cursor) :=
  match cursor.rest with
  | [] => none
  | character :: rest => if kind character then some (character, ⟨some character, rest⟩) else none

/-- As many characters of a kind as there are. -/
def span (kind : Char → Bool) (last : Option Char) : List Char → List Char × Cursor
  | [] => ([], ⟨last, []⟩)
  | character :: rest =>
      if kind character then
        let (more, cursor) := span kind (some character) rest
        (character :: more, cursor)
      else ([], ⟨last, character :: rest⟩)

def eatSome (kind : Char → Bool) (cursor : Cursor) : Option (List Char × Cursor) :=
  match span kind cursor.last cursor.rest with
  | ([], _) => none
  | (taken, next) => some (taken, next)

def isBlank (character : Char) : Bool :=
  character == ' ' || character == '\n' || character == '\r' || character == '\t'

/-- Past blanks and comments. A comment runs from a semicolon or two slashes to the end of its
    line; `commented` says that the place is inside one. -/
def skipFrom (commented : Bool) (last : Option Char) : List Char → Cursor
  | [] => ⟨last, []⟩
  | character :: rest =>
      if commented && character != '\n' then skipFrom true (some character) rest
      else if isBlank character then skipFrom false (some character) rest
      else if character == ';' || (character == '/' && rest.head? == some '/') then
        skipFrom true (some character) rest
      else ⟨last, character :: rest⟩

def skip (cursor : Cursor) : Cursor :=
  skipFrom false cursor.last cursor.rest

theorem eat_rest {kind : Char → Bool} {cursor next : Cursor} {character : Char}
    (eaten : cursor.eat kind = some (character, next)) :
    cursor.rest = character :: next.rest := by
  cases rest : cursor.rest with
  | nil => simp [eat, rest] at eaten
  | cons first more =>
      simp only [eat, rest] at eaten
      split at eaten
      · cases eaten
        rfl
      · contradiction

theorem span_rest (kind : Char → Bool) (last : Option Char) (characters : List Char) :
    (span kind last characters).1 ++ (span kind last characters).2.rest = characters := by
  induction characters generalizing last with
  | nil => rfl
  | cons character rest ih =>
      simp only [span]
      split
      · simp only [List.cons_append, ih]
      · rfl

theorem eatSome_rest_length_lt {kind : Char → Bool} {cursor next : Cursor} {taken : List Char}
    (eaten : cursor.eatSome kind = some (taken, next)) :
    next.rest.length < cursor.rest.length := by
  have split := span_rest kind cursor.last cursor.rest
  unfold eatSome at eaten
  generalize span kind cursor.last cursor.rest = result at eaten split
  obtain ⟨found, final⟩ := result
  cases found with
  | nil => contradiction
  | cons first more =>
      cases eaten
      rw [← split]
      simp only [List.cons_append, List.length_cons, List.length_append]
      omega

theorem skipFrom_rest_length_le (commented : Bool) (last : Option Char) (characters : List Char) :
    (skipFrom commented last characters).rest.length ≤ characters.length := by
  induction characters generalizing commented last with
  | nil => simp [skipFrom]
  | cons character rest ih =>
      simp only [skipFrom]
      repeat' split
      all_goals first
        | exact Nat.le_succ_of_le (ih _ _)
        | exact Nat.le_refl _

theorem skip_rest_length_le (cursor : Cursor) : cursor.skip.rest.length ≤ cursor.rest.length :=
  skipFrom_rest_length_le false cursor.last cursor.rest

/-- Readers that leave less to read whenever they find something. -/
def Shortens {α : Type} (read : Cursor → Option (α × Cursor)) : Prop :=
  ∀ cursor found next, read cursor = some (found, next) → next.rest.length < cursor.rest.length

/-- What a reader finds, again and again, and the place where it finds nothing more. -/
def many {α : Type} (read : Cursor → Option (α × Cursor)) (shortens : Shortens read)
    (cursor : Cursor) : List α × Cursor :=
  match _found : read cursor with
  | none => ([], cursor)
  | some (value, next) =>
      let (more, final) := many read shortens next
      (value :: more, final)
termination_by cursor.rest.length
decreasing_by exact shortens cursor value next _found

theorem many_rest_length_le {α : Type} (read : Cursor → Option (α × Cursor))
    (shortens : Shortens read) (cursor : Cursor) :
    (many read shortens cursor).2.rest.length ≤ cursor.rest.length := by
  fun_induction many read shortens cursor with
  | case1 cursor absent => exact Nat.le_refl _
  | case2 cursor value next found more final again ih =>
      rw [again] at ih
      exact Nat.le_trans ih (Nat.le_of_lt (shortens cursor value next found))

end Cursor

end Chip8.Assembly
