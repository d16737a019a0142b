import Chip8.Proofs.Assembly.Agreement
import Chip8.Proofs.Assembly.Stopping
import Chip8.Text.Newlines

namespace Chip8.Assembly

/-! Line ends of two characters. A carriage return in front of a line feed is blank, it stands where
    a comment and a line end anyway, and it is trimmed from the line that a report quotes. -/

/-- The text with a carriage return in front of each line feed. -/
def withReturns (text : List Char) : List Char :=
  text.flatMap fun character => if character = '\n' then ['\r', '\n'] else [character]

/-- A line feed stands directly behind each carriage return. -/
def ReturnsPaired (text : List Char) : Prop :=
  ∀ index < text.length, text[index]? = some '\r' → text[index + 1]? = some '\n'

instance : DecidablePred ReturnsPaired := fun text => by
  unfold ReturnsPaired
  infer_instance

/-- A text without carriage returns, and the same text with one in front of some line feeds. -/
inductive Returned : List Char → List Char → Prop
  | nil : Returned [] []
  | keep {character : Char} {rest copy : List Char} (other : character ≠ '\r')
      (further : Returned rest copy) : Returned (character :: rest) (character :: copy)
  | pair {rest copy : List Char} (further : Returned rest copy) :
      Returned ('\n' :: rest) ('\r' :: '\n' :: copy)

variable {text copy before after front back : List Char}

theorem returned_withReturns (free : '\r' ∉ text) : Returned text (withReturns text) := by
  induction text with
  | nil => exact .nil
  | cons character rest ih =>
      obtain ⟨other, free⟩ := not_or.mp (mt List.mem_cons.mpr free)
      have further := ih free
      rw [withReturns, List.flatMap_cons]
      split
      · next newline =>
          subst newline
          exact .pair further
      · exact .keep (Ne.symm other) further

theorem ReturnsPaired.tail {character : Char} {rest : List Char}
    (paired : ReturnsPaired (character :: rest)) : ReturnsPaired rest :=
  fun index bound => paired (index + 1) (Nat.succ_lt_succ bound)

theorem returned_unifyNewlines (paired : ReturnsPaired text) :
    Returned (Text.unifyNewlines text) text := by
  fun_induction Text.unifyNewlines text with
  | case1 => exact .nil
  | case2 rest ih => exact .pair (ih paired.tail.tail)
  | case3 rest single ih =>
      cases rest with
      | nil => cases paired 0 (Nat.zero_lt_one) rfl
      | cons second more =>
          cases paired 0 (Nat.zero_lt_succ _) rfl
          exact absurd rfl (single more)
  | case4 character rest _ other ih => exact .keep (by simpa using other) (ih paired.tail)

namespace Returned

theorem eq_unifyNewlines (returned : Returned text copy) : text = Text.unifyNewlines copy := by
  induction returned with
  | nil => rfl
  | keep other further ih => simp [Text.unifyNewlines, other, ← ih]
  | pair further ih => rw [Text.unifyNewlines, ← ih]

theorem head? (returned : Returned text copy) :
    copy.head? = some '/' ↔ text.head? = some '/' := by
  cases returned with
  | nil => exact Iff.rfl
  | keep => exact Iff.rfl
  | pair => simp

theorem replicate (returned : Returned text copy) (width : Nat) :
    Returned (List.replicate width ' ' ++ text) (List.replicate width ' ' ++ copy) := by
  induction width with
  | zero => exact returned
  | succ width ih => exact .keep (by decide) ih

theorem expandTabsFrom (returned : Returned text copy) (column : Nat) :
    Returned (Text.expandTabsFrom column text) (Text.expandTabsFrom column copy) := by
  induction returned generalizing column with
  | nil => exact .nil
  | keep other further ih =>
      rw [Text.expandTabsFrom, Text.expandTabsFrom]
      split
      · exact (ih _).replicate _
      · split
        · exact .keep other (ih 0)
        · exact .keep other (ih _)
  | pair further ih => exact .pair (ih 0)

theorem skipFrom (returned : Returned text copy) (commented : Bool) {last other : Option Char}
    (apart : last.any Cursor.clingsToKeyword = other.any Cursor.clingsToKeyword) :
    let place := Cursor.skipFrom commented last text
    let like := Cursor.skipFrom commented other copy
    Returned place.rest like.rest ∧
      place.last.any Cursor.clingsToKeyword = like.last.any Cursor.clingsToKeyword := by
  induction returned generalizing commented last other with
  | nil => exact ⟨.nil, apart⟩
  | keep single further ih =>
      rename_i character rest copy
      obtain ⟨role, next, opening⟩ := exists_opening rest commented character
      rw [opening.unfold.2, (opening.transfer further.head?).unfold.2]
      split
      · exact ⟨.keep single further, apart⟩
      · exact ih next rfl
  | pair further ih =>
      rename_i rest copy
      have line : Cursor.skipFrom commented last ('\n' :: rest) =
          Cursor.skipFrom false (some '\n') rest := by simp [Cursor.skipFrom, Cursor.isBlank]
      have pair : Cursor.skipFrom commented other ('\r' :: '\n' :: copy) =
          Cursor.skipFrom false (some '\n') copy := by
        cases commented <;> simp [Cursor.skipFrom, Cursor.isBlank]
      rw [line, pair]
      exact ih false rfl

end Returned

namespace Cursor

/-- Like places of a text and of the same text with carriage returns. -/
def SameLines (cursor copy : Cursor) : Prop :=
  Returned cursor.rest copy.rest ∧
    cursor.last.any clingsToKeyword = copy.last.any clingsToKeyword

theorem SameLines.skip {cursor copy : Cursor} (like : SameLines cursor copy) :
    SameLines cursor.skip copy.skip :=
  like.1.skipFrom false like.2

theorem SameLines.eat {last : Option Char} {character : Char} {rest : List Char} {copy : Cursor}
    (like : SameLines ⟨last, character :: rest⟩ copy) (ink : isInk character = true) :
    ∃ more, copy.rest = character :: more ∧
      SameLines ⟨some character, rest⟩ ⟨some character, more⟩ := by
  obtain ⟨place, more⟩ := copy
  obtain ⟨returned, _⟩ := like
  cases returned with
  | keep other further => exact ⟨_, rfl, further, rfl⟩
  | pair => cases ink

theorem SameLines.eat_back {cursor copy : Cursor} {character : Char} {more : List Char}
    (like : SameLines cursor copy) (whole : copy.rest = character :: more)
    (ink : isInk character = true) : ∃ rest, cursor.rest = character :: rest ∧
      SameLines ⟨some character, rest⟩ ⟨some character, more⟩ := by
  obtain ⟨last, text⟩ := cursor
  obtain ⟨returned, _⟩ := like
  rw [whole] at returned
  cases returned with
  | keep other further => exact ⟨_, rfl, further, rfl⟩
  | pair => cases ink

theorem rendering_sameLines : Rendering id (fun _ => True) SameLines where
  recased _ := Or.inl rfl
  skip_within _ _ _ := trivial
  eat_within _ _ _ _ _ := trivial
  last_like _ _ like := like.2
  skip_like _ _ like _ _ := like.skip
  eat_like _ _ _ _ like ink _ := like.eat ink
  eat_back _ _ character _ like whole ink := by
    obtain ⟨rest, here, like⟩ := like.eat_back whole ink
    exact ⟨character, rest, here, rfl, like⟩

theorem rendering_flip_sameLines : Rendering id (fun _ => True) (flip SameLines) where
  recased _ := Or.inl rfl
  skip_within _ _ _ := trivial
  eat_within _ _ _ _ _ := trivial
  last_like _ _ like := like.2.symm
  skip_like _ _ like _ _ := like.skip
  eat_like _ _ _ _ like ink _ := like.eat_back rfl ink
  eat_back cursor copy character more like whole ink := by
    obtain ⟨last, text⟩ := copy
    cases whole
    obtain ⟨rest, here, like⟩ := SameLines.eat like ink
    exact ⟨character, rest, here, rfl, like⟩

theorem mutual_sameLines : Mutual SameLines where
  forth := rendering_sameLines
  back := rendering_flip_sameLines

end Cursor

/-! Where the reading stops, both texts have the same line, column and quoted line. -/

namespace Returned

/-- What stands in front of a place and behind it, a line feed apart. -/
theorem split (returned : Returned text (front ++ back)) (within : back.head? ≠ some '\n') :
    ∃ before after, text = before ++ after ∧ Returned before front ∧ Returned after back := by
  generalize whole : front ++ back = copy at returned
  induction returned generalizing front with
  | nil =>
      obtain ⟨rfl, rfl⟩ := List.append_eq_nil_iff.mp whole
      exact ⟨[], [], rfl, .nil, .nil⟩
  | keep other further ih =>
      rename_i character rest copy
      cases front with
      | nil =>
          obtain rfl : back = character :: copy := whole
          exact ⟨[], character :: rest, rfl, .nil, .keep other further⟩
      | cons first front =>
          simp only [List.cons_append, List.cons.injEq] at whole
          obtain ⟨rfl, whole⟩ := whole
          obtain ⟨before, after, rfl, first, second⟩ := ih whole
          exact ⟨_ :: before, after, rfl, .keep other first, second⟩
  | pair further ih =>
      rename_i rest copy
      cases front with
      | nil =>
          obtain rfl : back = '\r' :: '\n' :: copy := whole
          exact ⟨[], '\n' :: rest, rfl, .nil, .pair further⟩
      | cons first front =>
          simp only [List.cons_append, List.cons.injEq] at whole
          obtain ⟨rfl, whole⟩ := whole
          cases front with
          -- The line feed of this carriage return would stand behind the place.
          | nil => exact absurd (congrArg List.head? whole) within
          | cons second front =>
              simp only [List.cons_append, List.cons.injEq] at whole
              obtain ⟨rfl, whole⟩ := whole
              obtain ⟨before, after, rfl, first, second⟩ := ih whole
              exact ⟨'\n' :: before, after, rfl, .pair first, second⟩

theorem count_newline (returned : Returned text copy) : copy.count '\n' = text.count '\n' := by
  induction returned with
  | nil => rfl
  | keep other further ih => rw [List.count_cons, List.count_cons, ih]
  | pair further ih => simp [ih]

theorem mem_newline (returned : Returned text copy) : '\n' ∈ copy ↔ '\n' ∈ text := by
  rw [← List.count_pos_iff, returned.count_newline, List.count_pos_iff]

theorem eq_of_single (returned : Returned text copy) (single : '\n' ∉ text) : copy = text := by
  induction returned with
  | nil => rfl
  | keep other further ih => rw [ih fun member => single (List.mem_cons_of_mem _ member)]
  | pair => exact absurd (List.mem_cons_self ..) single

theorem takeWhile_newline (returned : Returned text copy) :
    copy.takeWhile (· != '\n') = text.takeWhile (· != '\n') ∨
      copy.takeWhile (· != '\n') = text.takeWhile (· != '\n') ++ ['\r'] := by
  induction returned with
  | nil => exact Or.inl rfl
  | keep other further ih =>
      rename_i character rest copy
      by_cases newline : character = '\n'
      · subst newline
        exact Or.inl rfl
      · simpa [newline] using ih
  | pair => exact Or.inr rfl

end Returned

open Cursor

/-- What stands behind the last line feed. -/
def lastLine (text : List Char) : List Char :=
  (text.reverse.takeWhile (· != '\n')).reverse

theorem lastLine_cons (character : Char) (rest : List Char) :
    lastLine (character :: rest) =
      if '\n' ∈ rest then lastLine rest else if character = '\n' then rest
      else character :: rest := by
  have whole : (rest.reverse.takeWhile (· != '\n')).length = rest.reverse.length ↔
      '\n' ∉ rest := by
    rw [(List.takeWhile_sublist _).length_eq, List.takeWhile_eq_self_iff]
    simp [List.forall_mem_ne']
  rw [lastLine, List.reverse_cons, List.takeWhile_append]
  simp only [whole]
  by_cases member : '\n' ∈ rest
  · simp [member, lastLine]
  · by_cases newline : character = '\n' <;> simp [member, newline]

theorem Returned.lastLine (returned : Returned text copy) : lastLine copy = lastLine text := by
  induction returned with
  | nil => rfl
  | keep other further ih =>
      rw [lastLine_cons, lastLine_cons, ih]
      simp only [further.mem_newline]
      split
      · rfl
      · next single => rw [further.eq_of_single single]
  | pair further ih =>
      rw [lastLine_cons, if_pos (List.mem_cons_self ..), lastLine_cons, lastLine_cons, ih]
      simp only [further.mem_newline]
      split
      · rfl
      · next single => rw [further.eq_of_single single]

theorem trimmed_concat {kind : Char → Bool} {character : Char} (blank : kind character = true)
    (line : List Char) : Text.trimmed kind (line ++ [character]) = Text.trimmed kind line := by
  rw [Text.trimmed, List.dropWhile_append]
  split
  · next finished =>
      rw [Text.trimmed, List.isEmpty_iff.mp finished]
      simp [blank]
  · simp [Text.trimmed, blank]

theorem malformedAt_returned (first : Returned before front) (second : Returned after back) :
    malformedAt (front ++ back) front.length = malformedAt (before ++ after) before.length := by
  have here : (before.reverse.takeWhile (· != '\n')).reverse = lastLine before := rfl
  have there : (front.reverse.takeWhile (· != '\n')).reverse = lastLine before := first.lastLine
  simp only [malformedAt, Text.lineNumber, Text.columnNumber, Text.lineAround, Text.lineStart,
    List.take_left, List.drop_left, here, there, first.count_newline]
  rcases second.takeWhile_newline with same | longer
  · rw [same]
  · rw [longer, ← List.append_assoc, Text.trim, Text.trim, trimmed_concat (by decide)]

/-- A text is read in the same way, and refused in the same words, when there are carriage returns
    in front of its line feeds. -/
theorem parseWith_returned (returned : Returned text copy) :
    parseWith Production.all copy = parseWith Production.all text := by
  have expanded : Returned (Text.expandTabs text) (Text.expandTabs copy) :=
    returned.expandTabsFrom 0
  have begun : SameLines (start (Text.expandTabs text)) (start (Text.expandTabs copy)) :=
    ⟨expanded, rfl⟩
  obtain ⟨items, stop⟩ := mutual_sameLines.items begun
  have remainders := stop.skip.1
  have passed := (passes_items Production.all (start (Text.expandTabs copy))).1
  simp only [parseWith, items]
  generalize ((start (Text.expandTabs text)).items Production.all).2 = here at remainders ⊢
  generalize ((start (Text.expandTabs copy)).items Production.all).2 = there at remainders passed ⊢
  by_cases finished : there.skip.rest = []
  · rw [finished] at remainders
    rw [finished, remainders.eq_unifyNewlines]
    rfl
  · obtain ⟨front, character, back, whole, place, dark, _⟩ := passed.stop finished
    have rest : there.skip.rest = character :: back := by rw [place]
    have within : (character :: back).head? ≠ some '\n' := by
      intro newline
      cases newline
      cases dark
    -- The copy fixes the text, so both texts are cut at the place where the reading stopped.
    rw [whole] at expanded
    obtain ⟨before, after, split, first, second⟩ := expanded.split within
    rw [rest] at remainders
    have same : here.skip.rest = after :=
      remainders.eq_unifyNewlines.trans second.eq_unifyNewlines.symm
    have reports := malformedAt_returned first second
    rw [same, rest, whole, split, List.length_append, List.length_append, Nat.add_sub_cancel,
      Nat.add_sub_cancel, reports]
    cases second
    all_goals rfl

theorem assemble_returned {source other : String}
    (returned : Returned source.toList other.toList) : assemble other = assemble source := by
  rw [assemble, assemble, parse, parse, parseWith_returned returned]

end Chip8.Assembly
