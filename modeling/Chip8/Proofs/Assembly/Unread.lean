import Chip8.Proofs.Assembly.Arity
import Chip8.Proofs.Assembly.Diagnosis

namespace Chip8.Assembly

/-! The one thing that keeps an item from being read once a production matches is a number with too
    many decimal digits. Every other failure of the assembler is a report. -/

/-- A result that is missing, if it is, because of a number with too many digits. -/
def Legal {α : Type} (result : Except Failure α) : Prop :=
  ∀ reason, result = .error reason →
    ∃ count, reason = .digitLimit (some count) ∧ Numeral.digitLimit < count

variable {α β : Type} {cursor next final : Cursor}

theorem legal_ok (value : α) : Legal (.ok value) :=
  nofun

theorem Legal.map {result : Except Failure α} (legal : Legal result) (change : α → β) :
    Legal (result.map change) := by
  intro reason failed
  cases result with
  | error cause =>
      cases failed
      exact legal _ rfl
  | ok value => cases failed

theorem legal_gather {results : List (Except Failure α)} (legal : ∀ result ∈ results, Legal result) :
    Legal (gather results) := by
  intro reason failed
  obtain ⟨before, result, after, split, _, here⟩ := mapM_eq_error_iff.mp failed
  exact legal result (by simp [split]) reason here

namespace Cursor

theorem legal_spelled (base : Nat) (digits : List Nat) : Legal (spelled base digits) := by
  intro reason failed
  rw [spelled] at failed
  split at failed
  · cases failed
  · next tooMany =>
      cases failed
      refine ⟨_, rfl, ?_⟩
      rw [Numeral.Readable, Classical.not_imp, Nat.not_le] at tooMany
      exact tooMany.2

theorem numeral_legal {base : Nat} {value : Except Failure Nat}
    (read : numeral base cursor = some (value, next)) : Legal value := by
  obtain ⟨_, _, _, _, _, rfl, _⟩ := numeral_eq_some_iff.mp read
  exact legal_spelled _ _

theorem marked_legal {base : Nat} {isMark : Char → Bool} {value : Except Failure Nat}
    (read : marked base isMark cursor = some (value, next)) : Legal value := by
  obtain ⟨_, _, _, _, _, _, read⟩ := marked_eq_some_iff.mp read
  exact numeral_legal read

theorem number_legal {value : Except Failure Nat} (read : number cursor = some (value, next)) :
    Legal value := by
  rcases number_eq_some_iff.mp read with hexadecimal | ⟨_, binary | ⟨_, plain⟩⟩
  · exact marked_legal hexadecimal
  · exact marked_legal binary
  · exact numeral_legal plain

theorem literal_legal {operand : Except Failure Operand}
    (read : literal cursor = some (operand, next)) : Legal operand := by
  obtain ⟨value, found, rfl⟩ := literal_eq_some_iff.mp read
  exact (number_legal found).map _

theorem address_legal {operand : Except Failure Operand}
    (read : address cursor = some (operand, next)) : Legal operand := by
  rcases address_eq_some_iff.mp read with found | ⟨_, _, _, rfl⟩
  · exact literal_legal found
  · exact legal_ok _

theorem operand_legal {field : Field} {operand : Except Failure Operand}
    (read : Cursor.operand field cursor = some (operand, next)) : Legal operand := by
  cases field with
  | addr => exact address_legal read
  | x | y =>
      obtain ⟨_, _, same⟩ := Option.map_eq_some_iff.mp read
      cases same
      exact legal_ok _
  | n | byte => exact literal_legal read

variable {operands : List (Except Failure Operand)}

theorem slot_legal {shape : Slot} (read : slot shape cursor = some (operands, next)) :
    ∀ operand ∈ operands, Legal operand := by
  cases shape with
  | operand field =>
      obtain ⟨_, found, same⟩ := Option.map_eq_some_iff.mp read
      cases same
      exact List.forall_mem_singleton.mpr (operand_legal found)
  | fixed words =>
      obtain ⟨_, _, same⟩ := Option.map_eq_some_iff.mp read
      cases same
      exact fun _ member => absurd member List.not_mem_nil

theorem furtherSlots_legal {shapes : List Slot}
    (read : furtherSlots shapes cursor = some (operands, next)) :
    ∀ operand ∈ operands, Legal operand := by
  induction shapes generalizing cursor operands next with
  | nil =>
      cases read
      exact fun _ member => absurd member List.not_mem_nil
  | cons shape shapes ih =>
      obtain ⟨_, _, _, _, _, here, further, rfl⟩ := furtherSlots_cons_eq_some_iff.mp read
      exact List.forall_mem_append.mpr ⟨slot_legal here, ih further⟩

theorem slots_legal {shapes : List Slot} (read : slots shapes cursor = some (operands, next)) :
    ∀ operand ∈ operands, Legal operand := by
  cases shapes with
  | nil =>
      cases read
      exact fun _ member => absurd member List.not_mem_nil
  | cons shape shapes =>
      obtain ⟨_, _, _, here, further, rfl⟩ := slots_cons_eq_some_iff.mp read
      exact List.forall_mem_append.mpr ⟨slot_legal here, furtherSlots_legal further⟩

section Lists

variable {entry : Cursor → Option (Except Failure α × Cursor)} {values : List (Except Failure α)}
  (legal : ∀ cursor value next, entry cursor = some (value, next) → Legal value)
include legal

theorem many_legal (shortens : Shortens entry) (cursor : Cursor) :
    ∀ value ∈ (cursor.many entry shortens).1, Legal value := by
  fun_induction Cursor.many entry shortens cursor with
  | case1 cursor absent => exact fun _ member => absurd member List.not_mem_nil
  | case2 cursor value next found more final again ih =>
      rw [again] at ih
      exact List.forall_mem_cons.mpr ⟨legal _ _ _ found, ih⟩

theorem listOf_legal {shortens : Shortens entry}
    (read : listOf entry shortens cursor = some (values, next)) :
    ∀ value ∈ values, Legal value := by
  obtain ⟨first, middle, more, here, further, rfl⟩ := listOf_eq_some_iff.mp read
  have others := many_legal (fun cursor value next found => by
    obtain ⟨_, _, found⟩ := afterComma_eq_some_iff.mp found
    exact legal _ _ _ found) (afterComma_shortens shortens) middle
  rw [further] at others
  exact List.forall_mem_cons.mpr ⟨legal _ _ _ here, others⟩

end Lists

end Cursor

theorem Production.read_legal {production : Production} {reading : Reading}
    (read : production.read cursor = some (reading, next)) : Legal reading := by
  cases production with
  | instruction opcode =>
      obtain ⟨_, _, _, found, rfl⟩ := read_instruction_iff.mp read
      exact (legal_gather (Cursor.slots_legal found)).map _
  | shift opcode =>
      obtain ⟨_, _, _, _, _, ⟨_, _, rfl⟩ | ⟨_, _, rfl⟩⟩ := read_shift_iff.mp read <;>
        exact legal_ok _
  | bytes =>
      obtain ⟨_, _, _, found, rfl⟩ := read_bytes_iff.mp read
      exact (legal_gather (Cursor.listOf_legal (fun _ _ _ => Cursor.number_legal) found)).map _
  | words =>
      obtain ⟨_, _, _, found, rfl⟩ := read_words_iff.mp read
      exact (legal_gather (Cursor.listOf_legal (fun _ _ _ => Cursor.address_legal) found)).map _

namespace Cursor

theorem item_legal {productions : List Production} {reading : Reading}
    (read : cursor.item productions = some (reading, next)) : Legal reading := by
  rcases Option.or_eq_some_iff.mp read with labelled | ⟨_, produced⟩
  · obtain ⟨_, _, _, _, rfl⟩ := label_eq_some_iff.mp labelled
    exact legal_ok _
  · obtain ⟨production, _, found⟩ := List.exists_of_findSome?_eq_some produced
    exact production.read_legal found

theorem Passes.legal {productions : List Production} {readings : List Reading}
    (passed : Passes productions cursor readings final) : ∀ reading ∈ readings, Legal reading := by
  induction passed with
  | stay cursor => exact fun _ member => absurd member List.not_mem_nil
  | item read _ ih => exact List.forall_mem_cons.mpr ⟨item_legal read, ih⟩

end Cursor

/-- No text makes an instruction without the operands that it needs. -/
theorem assemble_error_cases {source : String} {failure : Failure}
    (failed : assemble source = .error failure) :
    (∃ error, failure = .report error) ∨ ∃ given, failure = .digitLimit given := by
  rcases bind_eq_error_iff.mp failed with unparsed | ⟨items, parsed, refused⟩
  · obtain ⟨readings, stop, passed, _, unread | ⟨_, _, _, rfl⟩⟩ := stop_of_parse_eq_error unparsed
    · obtain ⟨count, rfl, _⟩ := legal_gather passed.legal failure unread
      exact Or.inr ⟨_, rfl⟩
    · exact Or.inl ⟨_, rfl⟩
  · obtain ⟨reason, _, told⟩ := (assembleItems_eq_error_iff (shaped_of_parse parsed)).mp refused
    rcases AsmError.raised_eq_iff.mp told with ⟨_, rfl⟩ | ⟨_, rfl⟩
    · exact Or.inl ⟨_, rfl⟩
    · exact Or.inr ⟨_, rfl⟩

end Chip8.Assembly
