import Chip8.Assembly.Item
import Chip8.Assembly.Token
import Chip8.Instruction.Form

namespace Chip8.Assembly.Cursor

/-! The slots of an instruction's form as they are read from a source text, and lists of entries
    with commas between them. -/

def literal (cursor : Cursor) : Option (Except Failure Operand × Cursor) :=
  (number cursor).map fun (reading, next) => (reading.map fun (value : Nat) => .number value, next)

/-- An address is a number or the name of a label. -/
def address (cursor : Cursor) : Option (Except Failure Operand × Cursor) :=
  match literal cursor with
  | some found => some found
  | none => (name cursor).map fun (name, next) => (.ok (.label name), next)

def operand : Field → Cursor → Option (Except Failure Operand × Cursor)
  | .x, cursor => (register cursor).map fun (value, next) => (.ok (.number value), next)
  | .y, cursor => (register cursor).map fun (value, next) => (.ok (.number value), next)
  | .n, cursor => literal cursor
  | .byte, cursor => literal cursor
  | .addr, cursor => address cursor

theorem literal_shortens : Shortens literal := by
  intro cursor operand final accepted
  simp only [literal, Option.map_eq_some_iff, Prod.exists, Prod.mk.injEq] at accepted
  obtain ⟨reading, next, found, _, rfl⟩ := accepted
  exact number_shortens _ _ _ found

theorem address_shortens : Shortens address := by
  intro cursor operand final accepted
  simp only [address] at accepted
  split at accepted
  · next result found =>
      cases accepted
      exact literal_shortens _ _ _ found
  · simp only [Option.map_eq_some_iff, Prod.exists, Prod.mk.injEq] at accepted
    obtain ⟨name, next, found, _, rfl⟩ := accepted
    exact name_shortens _ _ _ found

theorem operand_shortens (field : Field) : Shortens (operand field) := by
  intro cursor value final accepted
  cases field with
  | addr => exact address_shortens _ _ _ accepted
  | x | y =>
      simp only [operand, Option.map_eq_some_iff, Prod.exists, Prod.mk.injEq] at accepted
      obtain ⟨number, next, found, _, rfl⟩ := accepted
      exact register_shortens _ _ _ found
  | n | byte => exact literal_shortens _ _ _ accepted

/-- A fixed word is a bracket or a keyword. -/
def fixedWord (word : String) (cursor : Cursor) : Option Cursor :=
  if word = "[" then symbol '[' cursor
  else if word = "]" then symbol ']' cursor
  else keyword word cursor

theorem fixedWord_rest_length_le {word : String} {cursor next : Cursor}
    (accepted : fixedWord word cursor = some next) :
    next.rest.length ≤ cursor.rest.length := by
  simp only [fixedWord] at accepted
  split at accepted
  · exact Nat.le_of_lt (symbol_rest_length_lt accepted)
  · split at accepted
    · exact Nat.le_of_lt (symbol_rest_length_lt accepted)
    · exact Nat.le_trans (Nat.le_add_right _ _) (keyword_rest_length_le accepted)

def fixedWords : List String → Cursor → Option Cursor
  | [], cursor => some cursor
  | word :: more, cursor => do fixedWords more (← fixedWord word cursor)

theorem fixedWords_rest_length_le {words : List String} {cursor next : Cursor}
    (accepted : fixedWords words cursor = some next) :
    next.rest.length ≤ cursor.rest.length := by
  induction words generalizing cursor with
  | nil =>
      cases accepted
      exact Nat.le_refl _
  | cons word more ih =>
      simp only [fixedWords, Option.bind_eq_bind, Option.bind_eq_some_iff] at accepted
      obtain ⟨after, first, others⟩ := accepted
      exact Nat.le_trans (ih others) (fixedWord_rest_length_le first)

def slot : Slot → Cursor → Option (List (Except Failure Operand) × Cursor)
  | .operand field, cursor => (operand field cursor).map fun (value, next) => ([value], next)
  | .fixed words, cursor => (fixedWords words cursor).map ([], ·)

theorem slot_rest_length_le {shape : Slot} {cursor final : Cursor} {operands : List (Except Failure Operand)}
    (accepted : slot shape cursor = some (operands, final)) :
    final.rest.length ≤ cursor.rest.length := by
  cases shape with
  | operand field =>
      simp only [slot, Option.map_eq_some_iff, Prod.exists, Prod.mk.injEq] at accepted
      obtain ⟨value, next, found, _, rfl⟩ := accepted
      exact Nat.le_of_lt (operand_shortens _ _ _ _ found)
  | fixed words =>
      simp only [slot, Option.map_eq_some_iff, Prod.mk.injEq] at accepted
      obtain ⟨next, found, _, rfl⟩ := accepted
      exact fixedWords_rest_length_le found

def furtherSlots : List Slot → Cursor → Option (List (Except Failure Operand) × Cursor)
  | [], cursor => some ([], cursor)
  | first :: rest, cursor => do
      let afterComma ← symbol ',' cursor
      let (operands, next) ← slot first afterComma
      let (more, final) ← furtherSlots rest next
      some (operands ++ more, final)

theorem furtherSlots_rest_length_le {shapes : List Slot} {cursor final : Cursor}
    {operands : List (Except Failure Operand)} (accepted : furtherSlots shapes cursor = some (operands, final)) :
    final.rest.length ≤ cursor.rest.length := by
  induction shapes generalizing cursor operands with
  | nil =>
      cases accepted
      exact Nat.le_refl _
  | cons shape more ih =>
      simp only [furtherSlots, Option.bind_eq_bind, Option.bind_eq_some_iff, Prod.exists,
        Option.some.injEq, Prod.mk.injEq] at accepted
      obtain ⟨afterComma, comma, first, next, found, others, last, further, _, rfl⟩ := accepted
      have commaLength := symbol_rest_length_lt comma
      have slotLength := slot_rest_length_le found
      have furtherLength := ih further
      omega

def slots : List Slot → Cursor → Option (List (Except Failure Operand) × Cursor)
  | [], cursor => some ([], cursor)
  | first :: rest, cursor => do
      let (operands, next) ← slot first cursor
      let (more, final) ← furtherSlots rest next
      some (operands ++ more, final)

theorem slots_rest_length_le {shapes : List Slot} {cursor final : Cursor}
    {operands : List (Except Failure Operand)} (accepted : slots shapes cursor = some (operands, final)) :
    final.rest.length ≤ cursor.rest.length := by
  cases shapes with
  | nil =>
      cases accepted
      exact Nat.le_refl _
  | cons shape more =>
      simp only [slots, Option.bind_eq_bind, Option.bind_eq_some_iff, Prod.exists,
        Option.some.injEq, Prod.mk.injEq] at accepted
      obtain ⟨first, next, found, others, last, further, _, rfl⟩ := accepted
      exact Nat.le_trans (furtherSlots_rest_length_le further) (slot_rest_length_le found)

def afterComma {α : Type} (entry : Cursor → Option (α × Cursor)) (cursor : Cursor) :
    Option (α × Cursor) := do
  entry (← symbol ',' cursor)

theorem afterComma_shortens {α : Type} {entry : Cursor → Option (α × Cursor)}
    (shortens : Shortens entry) : Shortens (afterComma entry) := by
  intro cursor value final accepted
  simp only [afterComma, Option.bind_eq_bind, Option.bind_eq_some_iff] at accepted
  obtain ⟨next, comma, found⟩ := accepted
  exact Nat.lt_trans (shortens _ _ _ found) (symbol_rest_length_lt comma)

/-- One entry and then as many as follow with a comma before each. -/
def listOf {α : Type} (entry : Cursor → Option (α × Cursor)) (shortens : Shortens entry)
    (cursor : Cursor) : Option (List α × Cursor) := do
  let (first, next) ← entry cursor
  let (more, final) := many (afterComma entry) (afterComma_shortens shortens) next
  some (first :: more, final)

theorem listOf_shortens {α : Type} (entry : Cursor → Option (α × Cursor))
    (shortens : Shortens entry) : Shortens (listOf entry shortens) := by
  intro cursor values final accepted
  simp only [listOf, Option.bind_eq_bind, Option.bind_eq_some_iff, Prod.exists,
    Option.some.injEq, Prod.mk.injEq] at accepted
  obtain ⟨first, next, found, _, rfl⟩ := accepted
  exact Nat.lt_of_le_of_lt (many_rest_length_le _ _ next) (shortens _ _ _ found)

end Chip8.Assembly.Cursor
