import Chip8.Assembly.Assemble
import Chip8.Proofs.Assembly.Choice

namespace Chip8.Assembly

/-! The order in which the productions are tried. At each place at most one of them reads, apart
    from the two jumps, so these are the only two that may not change places. -/

/-- The assembler with its productions tried in another order. -/
def assembleWith (productions : List Production) (source : String) :
    Except Failure (List UInt8) := do
  assembleItems (← parseWith productions source.toList)

namespace Cursor

variable {cursor next : Cursor}

theorem isNameStart_of_capital {character : Char} (isV : capital character = 'V') :
    isNameStart character = true := by
  by_cases ascii : character.toNat < 128
  · exact forall_ascii (fun character => capital character = 'V' → isNameStart character = true)
      (by decide) character ascii isV
  · rw [capital, toUpper_of_large ascii] at isV
    split at isV
    · exact absurd isV (by decide)
    · split at isV
      · exact absurd isV (by decide)
      · subst isV
        rfl

theorem exists_name {character : Char} (here : cursor.ahead = some character)
    (start : isNameStart character = true) : ∃ text final, name cursor = some (text, final) := by
  obtain ⟨rest, whole⟩ := List.head?_eq_some_iff.mp here
  have eaten : cursor.skip.eat isNameStart = some (character, ⟨some character, rest⟩) :=
    eat_eq_some_iff.mpr ⟨start, whole, rfl⟩
  exact ⟨_, _, Option.bind_eq_some_iff.mpr ⟨_, eaten, rfl⟩⟩

/-- The register in a jump relative to V0 reads as the name of a label as well. -/
theorem jump_of_offsetJump {found : Reading × Cursor}
    (read : Production.offsetJump.read cursor = some found) :
    ∃ other, Production.jump.read cursor = some other := by
  obtain ⟨afterMnemonic, _, mnemonic, filled, _⟩ := Production.read_instruction_iff.mp read
  obtain ⟨_, _, _, word, _⟩ := slots_cons_eq_some_iff.mp filled
  obtain ⟨letter, here, opens⟩ := slot_opens word (by decide)
  have start := isNameStart_of_capital (List.mem_singleton.mp opens)
  obtain ⟨text, final, named⟩ := exists_name here start
  have target : address afterMnemonic = some (.ok (.label text), final) :=
    address_eq_some_iff.mpr (Or.inr ⟨number_eq_none_of_name named, text, named, rfl⟩)
  have slot : slot Slot.addr afterMnemonic = some ([.ok (.label text)], final) :=
    Option.map_eq_some_iff.mpr ⟨_, target, rfl⟩
  exact ⟨_, Production.read_instruction_iff.mpr
    ⟨_, _, mnemonic, slots_cons_eq_some_iff.mpr ⟨_, _, _, slot, rfl, rfl⟩, rfl⟩⟩

theorem many_congr {α : Type} {first second : Cursor → Option (α × Cursor)} (same : first = second)
    (shortens : Shortens first) (shortensToo : Shortens second) :
    cursor.many first shortens = cursor.many second shortensToo := by
  subst same
  rfl

end Cursor

namespace Production

theorem Arranged.findSome?_eq {productions : List Production} (arranged : Arranged productions)
    (cursor : Cursor) :
    productions.findSome? (·.read cursor) = all.findSome? (·.read cursor) := by
  cases chosen : productions.findSome? (·.read cursor) with
  | none =>
      symm
      rw [List.findSome?_eq_none_iff] at chosen ⊢
      exact fun production listed => chosen production (arranged.perm.mem_iff.mpr listed)
  | some found =>
      obtain ⟨production, listed, read, first⟩ := arranged.exists_first chosen
      exact (arranged_all.findSome?_read listed read first).symm

end Production

open Production

theorem parseWith_arranged {productions : List Production} (arranged : Arranged productions)
    (source : List Char) : parseWith productions source = parseWith all source := by
  have items (cursor : Cursor) : cursor.items productions = cursor.items all := by
    refine Cursor.many_congr (funext fun place => ?_) _ _
    rw [Cursor.item, Cursor.item, arranged.findSome?_eq]
  simp only [parseWith, items]

/-- At no place do two of the productions read, save that the plain jump reads wherever the jump
    relative to V0 does. So a text has the same program or the same error in every order of the
    productions in which that one comes before the plain one. -/
theorem assembleWith_arranged :
    (all.length = 36 ∧ all.Nodup) ∧
      (∀ cursor, ∀ first ∈ all, ∀ second ∈ all, (first.read cursor).isSome = true →
        (second.read cursor).isSome = true → first = second ∨
          first = offsetJump ∧ second = jump ∨ first = jump ∧ second = offsetJump) ∧
        (∀ cursor, (offsetJump.read cursor).isSome = true → (jump.read cursor).isSome = true) ∧
          ∀ productions, productions.Perm all →
            productions.idxOf offsetJump < productions.idxOf jump →
              ∀ source, assembleWith productions source = assemble source := by
  refine ⟨by decide +kernel, fun cursor first listed second listedToo reads readsToo => ?_,
    fun cursor reads => ?_, fun productions perm offsetFirst source => ?_⟩
  · obtain ⟨_, readFirst⟩ := Option.isSome_iff_exists.mp reads
    obtain ⟨_, readSecond⟩ := Option.isSome_iff_exists.mp readsToo
    exact read_unique listed listedToo readFirst readSecond
  · obtain ⟨_, read⟩ := Option.isSome_iff_exists.mp reads
    exact Option.isSome_iff_exists.mpr (Cursor.jump_of_offsetJump read)
  · rw [assembleWith, parseWith_arranged ⟨perm, offsetFirst⟩]
    rfl

/-- The jump relative to V0 first and all others from the last to the first, on a text in which V0
    is a label as well. -/
theorem assembleWith_arranged_backwards :
    let productions := offsetJump :: (all.erase offsetJump).reverse
    let place := Cursor.start "JP V0, V0".toList
    (productions.Perm all ∧ productions.idxOf offsetJump < productions.idxOf jump) ∧
      ((offsetJump.read place).isSome = true ∧ (jump.read place).isSome = true) ∧
        (∀ production ∈ all, (production.read place).isSome = true →
          production = offsetJump ∨ production = jump) ∧
          assembleWith productions "V0: JP V0, V0\nJP V0" = .ok [0xB2, 0x00, 0x12, 0x00] := by
  intro productions place
  have perm : productions.Perm all := by decide +kernel
  have offsetFirst : productions.idxOf offsetJump < productions.idxOf jump := by decide +kernel
  have offset : (offsetJump.read place).isSome = true := by decide +kernel
  have assembled : assemble "V0: JP V0, V0\nJP V0" = .ok [0xB2, 0x00, 0x12, 0x00] := by
    decide +kernel
  obtain ⟨_, unique, both, same⟩ := assembleWith_arranged
  refine ⟨⟨perm, offsetFirst⟩, ⟨offset, both place offset⟩, fun production listed reads => ?_, ?_⟩
  · rcases unique place production listed offsetJump (by decide) reads offset with
      isOffset | ⟨isOffset, _⟩ | ⟨isJump, _⟩
    · exact Or.inl isOffset
    · exact Or.inl isOffset
    · exact Or.inr isJump
  · rw [same productions perm offsetFirst, assembled]

end Chip8.Assembly
