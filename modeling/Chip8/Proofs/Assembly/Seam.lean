import Chip8.Proofs.Assembly.Rendition

namespace Chip8.Assembly

/-! A text that goes on after a line feed. No token and no comment crosses the line feed, so
    whatever is read in front of it is read all the same. -/

namespace Cursor

/-- The same place in a text that goes on in a new line. -/
def extended (later : List Char) (cursor : Cursor) : Cursor :=
  ⟨cursor.last, cursor.rest ++ '\n' :: later⟩

variable {cursor : Cursor} (later : List Char)

theorem skipFrom_extended (commented : Bool) (last : Option Char) (characters : List Char) :
    skipFrom commented last (characters ++ '\n' :: later) =
      if (skipFrom commented last characters).rest = [] then skip ⟨some '\n', later⟩
      else (skipFrom commented last characters).extended later := by
  induction characters generalizing commented last with
  | nil => simp [skipFrom, isBlank, skip]
  | cons character rest ih =>
      have lookahead : ((rest ++ '\n' :: later).head? == some '/') = (rest.head? == some '/') := by
        cases rest <;> rfl
      simp only [List.cons_append, skipFrom, lookahead, ih]
      split
      · rfl
      · split
        · rfl
        · split
          · rfl
          · simp [extended]

theorem skip_extended (inside : cursor.skip.rest ≠ []) :
    (cursor.extended later).skip = cursor.skip.extended later := by
  rw [skip, extended, skipFrom_extended]
  exact if_neg inside

theorem skip_extended_end (finished : cursor.skip.rest = []) :
    (cursor.extended later).skip = skip ⟨some '\n', later⟩ := by
  rw [skip, extended, skipFrom_extended]
  exact if_pos finished

theorem ahead_extended (cursor : Cursor) :
    (cursor.extended later).ahead = cursor.ahead.or (start later).ahead := by
  have newline : (start later).ahead = ahead ⟨some '\n', later⟩ :=
    congrArg List.head? (skip_rest_congr rfl)
  rw [newline]
  cases remaining : cursor.skip.rest with
  | nil =>
      rw [ahead, skip_extended_end later remaining, ahead, remaining]
      rfl
  | cons character rest =>
      rw [ahead, skip_extended later (by simp [remaining]), ahead, extended, remaining]
      rfl

theorem rendering_extended :
    Rendering id (fun _ => True) fun cursor copy => copy = cursor.extended later where
  recased _ := Or.inl rfl
  skip_within _ _ _ := trivial
  eat_within _ _ _ _ _ := trivial
  last_like cursor copy like := by
    subst like
    rfl
  skip_like cursor copy like inside _ := by
    subst like
    exact skip_extended later inside
  eat_like last character rest copy like _ _ := by
    subst like
    exact ⟨rest ++ '\n' :: later, rfl, rfl⟩
  eat_back cursor copy character more like whole ink := by
    subst like
    obtain ⟨last, rest⟩ := cursor
    cases rest with
    | nil =>
        cases whole
        cases ink
    | cons first rest =>
        cases whole
        exact ⟨character, rest, rfl, rfl, rfl⟩

theorem Passes.extended {final : Cursor} {readings : List Reading}
    (passed : Passes Production.all cursor readings final) (finished : final.skip.rest = [])
    (noColon : (start later).ahead ≠ some ':') (noComma : (start later).ahead ≠ some ',') :
    Passes Production.all (cursor.extended later) readings (final.extended later) := by
  have quiet (copy : Cursor) (like : copy = final.extended later) :
      copy.ahead ≠ some ',' ∧ copy.ahead ≠ some ':' := by
    rw [like, ahead_extended, ahead_of_end finished, Option.none_or]
    exact ⟨noComma, noColon⟩
  obtain ⟨after, again, rfl⟩ :=
    ((rendering_extended later).passes passed quiet).copies trivial _ rfl
  rwa [Reading.all_respelled_id] at again

end Cursor

end Chip8.Assembly
