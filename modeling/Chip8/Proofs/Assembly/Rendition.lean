import Chip8.Proofs.Assembly.Rendering

namespace Chip8.Assembly

/-! Items and whole passages in another rendering. What ends an item there is that no comma and no
    colon follows, which is known once the items behind it have been read. -/

namespace Cursor

variable {cursor next final : Cursor} {result : Reading} {readings : List Reading}

theorem slots_ahead_ne_colon {opcode : Opcode} {operands : List (Except Failure Operand)}
    (read : slots opcode.form.slots cursor = some (operands, next))
    (noColon : next.ahead ≠ some ':') : cursor.ahead ≠ some ':' := by
  have fromTable : ∀ shape ∈ opcode.form.slots, openings shape ≠ [] ∧
      (openings shape).contains (capital ':') = false := by
    cases opcode with
    | draw => decide
    | _ op => cases op <;> decide
  cases shaped : opcode.form.slots with
  | nil =>
      rw [shaped] at read
      cases read
      exact noColon
  | cons shape more =>
      rw [shaped] at read fromTable
      obtain ⟨_, _, _, filled, _⟩ := slots_cons_eq_some_iff.mp read
      obtain ⟨nonempty, apart⟩ := fromTable shape (List.mem_cons_self ..)
      obtain ⟨character, first, opens⟩ := slot_opens filled nonempty
      intro colon
      cases first.symm.trans colon
      rw [List.contains_iff_mem.mpr opens] at apart
      cases apart

/-- No label is read where a production reads, unless a colon follows. -/
theorem label_eq_none_of_read {production : Production} (listed : production ∈ Production.all)
    (read : production.read cursor = some (result, next)) (noColon : next.ahead ≠ some ':') :
    cursor.label = none := by
  have settled {after : Cursor} (mnemonic : keyword production.mnemonic cursor = some after)
      (quiet : after.ahead ≠ some ':') : cursor.label = none :=
    label_eq_none_of_keyword (Production.isMnemonic listed) mnemonic quiet
  have opened {character : Char} {openings : List Char} {after : Cursor}
      (here : after.ahead = some character) (opens : capital character ∈ openings)
      (apart : openings.contains (capital ':') = false) : after.ahead ≠ some ':' := by
    intro colon
    cases here.symm.trans colon
    rw [List.contains_iff_mem.mpr opens] at apart
    cases apart
  cases production with
  | instruction opcode =>
      obtain ⟨_, _, mnemonic, filled, _⟩ := Production.read_instruction_iff.mp read
      exact settled mnemonic (slots_ahead_ne_colon filled noColon)
  | shift opcode =>
      obtain ⟨_, _, _, mnemonic, first, _⟩ := Production.read_shift_iff.mp read
      obtain ⟨character, here, isV⟩ := register_opens first
      exact settled mnemonic (opened here (List.mem_singleton.mpr isV) (by decide))
  | bytes =>
      obtain ⟨_, _, mnemonic, found, _⟩ := Production.read_bytes_iff.mp read
      obtain ⟨_, _, _, numbered, _⟩ := listOf_eq_some_iff.mp found
      obtain ⟨character, here, opens⟩ := number_opens numbered
      exact settled mnemonic (opened here opens (by decide))
  | words =>
      obtain ⟨_, _, mnemonic, found, _⟩ := Production.read_words_iff.mp read
      obtain ⟨_, _, _, addressed, _⟩ := listOf_eq_some_iff.mp found
      obtain ⟨character, here, opens⟩ := address_opens addressed
      exact settled mnemonic (opened here opens (by decide))

variable {spell : Char → Char} {Within : Cursor → Prop} {Like : Cursor → Cursor → Prop}

namespace Rendering

variable (rendering : Rendering spell Within Like)
include rendering

theorem production {production : Production} (listed : production ∈ Production.all)
    (read : production.read cursor = some (result, next)) :
    Repeats Within Like cursor next fun copy after => after.ahead ≠ some ',' →
      production.read copy = some (result.map (·.respelled spell), after) := by
  have fromTable : ∀ production ∈ Production.all, Legible production.mnemonic := by decide
  have legible := fromTable production listed
  cases production with
  | instruction opcode =>
      obtain ⟨_, operands, mnemonic, filled, rfl⟩ := Production.read_instruction_iff.mp read
      refine ((rendering.keyword legible mnemonic).trans
        (rendering.slots (legible_form opcode) filled)).imp ?_
      intro copy after again _
      obtain ⟨_, mnemonic, filled⟩ := again
      refine Production.read_instruction_iff.mpr ⟨_, _, mnemonic, filled, ?_⟩
      rw [gather_map_map]
      cases gather operands <;> rfl
  | shift opcode =>
      obtain ⟨_, _, _, mnemonic, first, second⟩ := Production.read_shift_iff.mp read
      have begun := (rendering.keyword legible mnemonic).trans (rendering.register first)
      rcases second with ⟨y, second, rfl⟩ | ⟨_, rfl, rfl⟩
      · obtain ⟨_, comma, second⟩ := afterComma_eq_some_iff.mp second
        refine (begun.trans ((rendering.comma comma).trans (rendering.register second))).imp ?_
        intro copy after again _
        obtain ⟨_, ⟨_, mnemonic, first⟩, _, comma, second⟩ := again
        have second := afterComma_eq_some_iff.mpr ⟨_, comma, second⟩
        exact Production.read_shift_iff.mpr ⟨_, _, _, mnemonic, first, Or.inl ⟨_, second, rfl⟩⟩
      · refine begun.imp ?_
        intro copy after again quiet
        obtain ⟨_, mnemonic, first⟩ := again
        have single : afterComma Cursor.register after = none := afterComma_eq_none quiet
        exact Production.read_shift_iff.mpr
          ⟨_, _, _, mnemonic, first, Or.inr ⟨single, rfl, rfl⟩⟩
  | bytes =>
      obtain ⟨_, values, mnemonic, found, rfl⟩ := Production.read_bytes_iff.mp read
      have counted (cursor : Cursor) (value : Except Failure Nat) (next : Cursor)
          (read : Cursor.number cursor = some (value, next)) :
          Repeats Within Like cursor next fun copy after =>
            Cursor.number copy = some (id value, after) := rendering.number read
      refine ((rendering.keyword legible mnemonic).trans
        (rendering.listOf number_shortens counted found)).imp ?_
      intro copy after again quiet
      obtain ⟨_, mnemonic, found⟩ := again
      have found := found quiet
      rw [List.map_id] at found
      refine Production.read_bytes_iff.mpr ⟨_, _, mnemonic, found, ?_⟩
      cases gather values <;> rfl
  | words =>
      obtain ⟨_, values, mnemonic, found, rfl⟩ := Production.read_words_iff.mp read
      refine ((rendering.keyword legible mnemonic).trans (rendering.listOf address_shortens
        (fun _ _ _ read => rendering.address read) found)).imp ?_
      intro copy after again quiet
      obtain ⟨_, mnemonic, found⟩ := again
      refine Production.read_words_iff.mpr ⟨_, _, mnemonic, found quiet, ?_⟩
      rw [gather_map_map]
      cases gather values <;> rfl

theorem item (read : cursor.item Production.all = some (result, next)) :
    Repeats Within Like cursor next fun copy after => after.ahead ≠ some ',' →
      after.ahead ≠ some ':' →
        copy.item Production.all = some (result.map (·.respelled spell), after) := by
  rcases Option.or_eq_some_iff.mp read with labelled | ⟨_, produced⟩
  · refine (rendering.label labelled).imp fun copy after here _ _ => ?_
    rw [Cursor.item, here, Option.some_or]
  · obtain ⟨production, listed, found⟩ := List.exists_of_findSome?_eq_some produced
    refine (rendering.production listed found).imp fun copy after kept noComma noColon => ?_
    have kept := kept noComma
    refine item_of_read listed kept (fun isJump => ?_) (label_eq_none_of_read listed kept noColon)
    subst isJump
    exact offsetJump_eq_none_of_jump kept noComma

theorem reaches (passed : Passes Production.all cursor readings final) :
    Repeats Within Like cursor final fun _ _ => True := by
  induction passed with
  | stay cursor => exact (Repeats.refl _).imp fun _ _ _ => trivial
  | item read further ih => exact ((rendering.item read).trans ih).imp fun _ _ _ => trivial

/-- A passage is found in the other text unless it goes on there with a comma or a colon. -/
theorem passes (passed : Passes Production.all cursor readings final)
    (quiet : ∀ copy, Like final copy → copy.ahead ≠ some ',' ∧ copy.ahead ≠ some ':') :
    Repeats Within Like cursor final fun copy after =>
      Passes Production.all copy (readings.map (·.map (·.respelled spell))) after := by
  induction passed with
  | stay cursor =>
      refine (Repeats.refl _).imp ?_
      intro copy after same
      subst same
      exact .stay _
  | item read further ih =>
      refine ((rendering.item read).trans ((ih quiet).and quiet)).imp ?_
      intro copy after again
      obtain ⟨between, reread, passed, noComma, noColon⟩ := again
      refine .item (reread ?_ ?_) passed
      · exact passed.ahead_ne noComma (by decide)
      · exact passed.ahead_ne noColon (by decide)

/-- A passage that goes to the end of the other text is found there. -/
theorem passes_to_end (passed : Passes Production.all cursor readings final)
    (ends : ∀ copy, Like final copy → copy.skip.rest = []) :
    Repeats Within Like cursor final fun copy after =>
      Passes Production.all copy (readings.map (·.map (·.respelled spell))) after ∧ after.skip.rest = [] := by
  have quiet (copy : Cursor) (like : Like final copy) :
      copy.ahead ≠ some ',' ∧ copy.ahead ≠ some ':' := by
    rw [ahead_of_end (ends copy like)]
    exact ⟨nofun, nofun⟩
  exact (rendering.passes passed quiet).and ends

end Rendering

end Cursor

end Chip8.Assembly
