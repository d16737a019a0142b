import Chip8.Proofs.Assembly.Rendition

namespace Chip8.Assembly

/-! Blanks and comments carry no meaning. Texts with the same ink, and with gaps at the same places
    of it, consist of the same items. -/

/-- What a character is part of. -/
inductive Role
  | ink
  | blank
  | comment
  deriving DecidableEq, Repr

/-- The characters of a text with their roles; `commented` says that it begins inside a comment. -/
def roles (commented : Bool) : List Char → List (Char × Role)
  | [] => []
  | character :: rest =>
      if commented && character != '\n' then (character, .comment) :: roles true rest
      else if Cursor.isBlank character then (character, .blank) :: roles false rest
      else if character == ';' || (character == '/' && rest.head? == some '/') then
        (character, .comment) :: roles true rest
      else (character, .ink) :: roles false rest

def uncommented (commented : Bool) (text : List Char) : List Char :=
  ((roles commented text).filter (·.2 != .comment)).map Prod.fst

/-- The text without its comments. -/
def withoutComments (text : List Char) : List Char :=
  uncommented false text

/-- The text with a space for each tab. -/
def withoutTabs (text : List Char) : List Char :=
  text.map fun character => if character = '\t' then ' ' else character

/-- One separator for each run of blanks and comments; `gap` says that the text begins inside of
    one. -/
def condensedFrom (separator : Char) (gap : Bool) : List (Char × Role) → List Char
  | [] => []
  | (character, .ink) :: rest => character :: condensedFrom separator false rest
  | _ :: rest =>
      if gap then condensedFrom separator true rest
      else separator :: condensedFrom separator true rest

def condensed (separator : Char) (text : List Char) : List Char :=
  condensedFrom separator false (roles false text)

/-- The ink of a text, with a mark for each gap before it. What stands behind all ink is left
    out. -/
def inked (gap : Bool) : List (Char × Role) → List (Option Char)
  | [] => []
  | (character, .ink) :: rest =>
      (if gap then [none] else []) ++ some character :: inked false rest
  | _ :: rest => inked true rest

theorem Cursor.not_clings_of_blank {character : Char} (blank : isBlank character = true) :
    clingsToKeyword character = false := by
  by_contra clings
  have ink := plain_clings.ink character (by simpa using clings)
  simp [isInk, blank] at ink

section Roles

variable {commented next gap : Bool} {role : Role} {character : Char} {rest text : List Char}

/-- How a text begins, and whether what follows is inside a comment. -/
inductive Opening (rest : List Char) : Bool → Char → Role → Bool → Prop
  | commented {character : Char} (other : character ≠ '\n') :
      Opening rest true character .comment true
  | blank {commented : Bool} {character : Char} (blank : Cursor.isBlank character = true)
      (ends : commented = true → character = '\n') : Opening rest commented character .blank false
  | semicolon : Opening rest false ';' .comment true
  | slashes (second : rest.head? = some '/') : Opening rest false '/' .comment true
  | ink {character : Char} (dark : Cursor.isBlank character = false) (open_ : character ≠ ';')
      (single : character = '/' → rest.head? ≠ some '/') : Opening rest false character .ink false

/-- What is made of a text that begins so. -/
theorem Opening.unfold (opening : Opening rest commented character role next) :
    roles commented (character :: rest) = (character, role) :: roles next rest ∧
      ∀ last, Cursor.skipFrom commented last (character :: rest) =
        if role = .ink then ⟨last, character :: rest⟩
        else Cursor.skipFrom next (some character) rest := by
  rw [roles]
  simp only [Cursor.skipFrom]
  cases opening with
  | commented other => simp [other]
  | blank blank ends =>
      have inside : (commented && character != '\n') = false := by
        cases commented
        · rfl
        · simp [ends rfl]
      simp [inside, blank]
  | semicolon => exact ⟨rfl, fun _ => rfl⟩
  | slashes second =>
      have dark : Cursor.isBlank '/' = false := by decide
      simp [second, dark]
  | ink dark open_ single =>
      have comment : ¬ (character == '/' && rest.head? == some '/') = true := by
        simpa using single
      simp [dark, open_, comment]

theorem exists_opening (rest : List Char) (commented : Bool) (character : Char) :
    ∃ role next, Opening rest commented character role next := by
  by_cases blank : Cursor.isBlank character = true ∧ (commented = true → character = '\n')
  · exact ⟨_, _, .blank blank.1 blank.2⟩
  · cases commented with
    | true =>
        refine ⟨_, _, .commented fun newline => blank ⟨?_, fun _ => newline⟩⟩
        rw [newline]
        rfl
    | false =>
        have dark : Cursor.isBlank character = false := by simpa using blank
        by_cases semicolon : character = ';'
        · subst semicolon
          exact ⟨_, _, .semicolon⟩
        · by_cases slashes : character = '/' ∧ rest.head? = some '/'
          · obtain ⟨rfl, second⟩ := slashes
            exact ⟨_, _, .slashes second⟩
          · exact ⟨_, _, .ink dark semicolon (not_and.mp slashes)⟩

theorem inked_true (text : List (Char × Role)) :
    inked true text = [] ∨ ∃ more, inked true text = none :: more := by
  induction text with
  | nil => exact Or.inl rfl
  | cons first rest ih =>
      obtain ⟨character, role⟩ := first
      cases role with
      | ink => exact Or.inr ⟨_, rfl⟩
      | blank | comment => exact ih

/-- Skipping goes up to the next ink, and it goes over a gap unless it stays where it is. -/
theorem skipFrom_inked (commented : Bool) (last : Option Char) (text : List Char) :
    let place := Cursor.skipFrom commented last text
    (place.rest = [] ∧ ∀ gap, inked gap (roles commented text) = []) ∨
      ∃ character more, inked false (roles false place.rest) = some character :: more ∧
        (commented = false ∧ place.last = last ∧ (∀ gap, inked gap (roles commented text) =
            (if gap then [none] else []) ++ some character :: more) ∨
          place.last.any Cursor.clingsToKeyword = false ∧
            ∀ gap, inked gap (roles commented text) = none :: some character :: more) := by
  induction text generalizing commented last with
  | nil => exact Or.inl ⟨rfl, fun _ => rfl⟩
  | cons first rest ih =>
      obtain ⟨role, next, opening⟩ := exists_opening rest commented first
      obtain ⟨spelled, skipped⟩ := opening.unfold
      by_cases ink : role = .ink
      · subst ink
        cases opening with
        | ink =>
            refine Or.inr
              ⟨first, inked false (roles false rest), ?_, Or.inl ⟨rfl, ?_, fun gap => ?_⟩⟩
            · rw [skipped, if_pos rfl, spelled]
              rfl
            · rw [skipped, if_pos rfl]
            · rw [spelled]
              rfl
      · have gapped (gap : Bool) :
            inked gap (roles commented (first :: rest)) = inked true (roles next rest) := by
          rw [spelled]
          cases role <;> first | rfl | contradiction
        simp only [gapped, skipped, if_neg ink]
        rcases ih next (some first) with ⟨finished, none⟩ | ⟨character, more, here, found⟩
        · exact Or.inl ⟨finished, fun _ => none true⟩
        · refine Or.inr ⟨character, more, here, Or.inr ?_⟩
          rcases found with ⟨open_, last, same⟩ | ⟨apart, same⟩
          · refine ⟨?_, fun _ => same true⟩
            subst open_
            cases opening with
            | blank blank =>
                rw [last, Option.any_some]
                exact Cursor.not_clings_of_blank blank
            | ink => contradiction
          · exact ⟨apart, fun _ => same true⟩

theorem opening_of_isInk (ink : Cursor.isInk character = true) :
    Opening rest false character .ink false := by
  simp only [Cursor.isInk, Bool.and_eq_true, Bool.not_eq_true', bne_iff_ne] at ink
  obtain ⟨⟨dark, open_⟩, single⟩ := ink
  exact .ink dark open_ fun slash => absurd slash single

theorem roles_ink (ink : Cursor.isInk character = true) :
    roles false (character :: rest) = (character, .ink) :: roles false rest :=
  (opening_of_isInk ink).unfold.1

theorem roles_blank (blank : Cursor.isBlank character = true) :
    roles false (character :: rest) = (character, .blank) :: roles false rest := by
  have opening : Opening rest false character .blank false := .blank blank Bool.false_ne_true.elim
  exact opening.unfold.1

theorem roles_of_inked {more : List (Option Char)}
    (first : inked false (roles false text) = some character :: more) :
    ∃ rest, text = character :: rest ∧ inked false (roles false rest) = more := by
  cases text with
  | nil => cases first
  | cons opening rest =>
      obtain ⟨role, next, opened⟩ := exists_opening rest false opening
      rw [opened.unfold.1] at first
      cases opened with
      | ink =>
          cases first
          exact ⟨rest, rfl, rfl⟩
      | blank | semicolon | slashes =>
          rcases inked_true (roles _ rest) with none | ⟨further, gap⟩
          · cases none.symm.trans first
          · cases gap.symm.trans first

end Roles

namespace Cursor

/-- Two places with the same ink behind them, and both or neither behind a part of a word. -/
def SameInk (cursor copy : Cursor) : Prop :=
  inked false (roles false cursor.rest) = inked false (roles false copy.rest) ∧
    cursor.last.any clingsToKeyword = copy.last.any clingsToKeyword

theorem finished_iff (cursor : Cursor) :
    cursor.skip.rest = [] ↔ inked false (roles false cursor.rest) = [] := by
  rcases skipFrom_inked false cursor.last cursor.rest with
    ⟨finished, none⟩ | ⟨character, more, here, ⟨_, _, same⟩ | ⟨_, same⟩⟩
  · exact iff_of_true finished (none false)
  all_goals
    refine iff_of_false (fun finished => ?_) (by rw [same false]; simp)
    rw [skip] at finished
    rw [finished] at here
    cases here

theorem rendering_sameInk : Rendering id (fun _ => True) SameInk where
  recased _ := Or.inl rfl
  skip_within _ _ _ := trivial
  eat_within _ _ _ _ _ := trivial
  last_like _ _ like := like.2
  skip_like cursor copy like inside _ := by
    obtain ⟨same, apart⟩ := like
    rcases skipFrom_inked false cursor.last cursor.rest with
      ⟨finished, _⟩ | ⟨character, more, here, found⟩
    · exact absurd finished inside
    rcases skipFrom_inked false copy.last copy.rest with
      ⟨_, none⟩ | ⟨other, further, there, foundToo⟩
    · rw [none false] at same
      rcases found with ⟨_, _, begun⟩ | ⟨_, begun⟩ <;> cases same.symm.trans (begun false)
    · change inked false (roles false cursor.skip.rest) = _ at here
      change inked false (roles false copy.skip.rest) = _ at there
      rcases found with ⟨_, last, begun⟩ | ⟨free, begun⟩ <;>
        rcases foundToo with ⟨_, lastToo, begunToo⟩ | ⟨freeToo, begunToo⟩ <;>
          rw [begun false, begunToo false] at same <;> cases same
      · refine ⟨here.trans there.symm, ?_⟩
        rw [skip, skip, last, lastToo]
        exact apart
      · exact ⟨here.trans there.symm, free.trans freeToo.symm⟩
  eat_like last character rest copy like ink _ := by
    obtain ⟨same, _⟩ := like
    rw [roles_ink ink] at same
    obtain ⟨more, whole, same⟩ := roles_of_inked same.symm
    exact ⟨more, whole, same.symm, rfl⟩
  eat_back cursor copy character more like whole ink := by
    obtain ⟨same, _⟩ := like
    rw [whole, roles_ink ink] at same
    obtain ⟨rest, here, same⟩ := roles_of_inked same
    exact ⟨character, rest, here, rfl, same, rfl⟩

end Cursor

/-! The rewritten texts have the same ink. -/

section Rewriting

variable {commented next gap : Bool} {role : Role} {character : Char} {rest other text : List Char}

theorem Opening.transfer (opening : Opening rest commented character role next)
    (same : other.head? = some '/' ↔ rest.head? = some '/') :
    Opening other commented character role next := by
  cases opening with
  | commented other => exact .commented other
  | blank blank ends => exact .blank blank ends
  | semicolon => exact .semicolon
  | slashes second => exact .slashes (same.mpr second)
  | ink dark open_ single => exact .ink dark open_ fun slash second => single slash (same.mp second)

theorem inked_cons_congr {first second : List (Char × Role)}
    (same : ∀ gap, inked gap first = inked gap second) (gap : Bool) (character : Char)
    (role : Role) :
    inked gap ((character, role) :: first) = inked gap ((character, role) :: second) := by
  cases role with
  | ink => exact congrArg ((if gap then [none] else []) ++ some character :: ·) (same false)
  | blank | comment => exact same true

/-- A text and the same text with spaces, and at least one, for each tab. -/
inductive Spaced : List Char → List Char → Prop
  | nil : Spaced [] []
  | keep {character : Char} {rest spaced : List Char} (further : Spaced rest spaced) :
      Spaced (character :: rest) (character :: spaced)
  | tab {rest spaced : List Char} (width : Nat) (further : Spaced rest spaced) :
      Spaced ('\t' :: rest) (List.replicate (width + 1) ' ' ++ spaced)

theorem Spaced.head? {spaced : List Char} (rewritten : Spaced text spaced) :
    spaced.head? = some '/' ↔ text.head? = some '/' := by
  cases rewritten with
  | nil => exact Iff.rfl
  | keep => exact Iff.rfl
  | tab width further => simp [List.replicate_succ]

theorem inked_blank (blank : Cursor.isBlank character = true) (other : character ≠ '\n') :
    inked gap (roles commented (character :: rest)) = inked true (roles commented rest) := by
  cases commented with
  | true => rw [(Opening.commented other).unfold.1]; rfl
  | false => rw [roles_blank blank]; rfl

theorem inked_spaces (width : Nat) :
    inked gap (roles commented (List.replicate (width + 1) ' ' ++ text)) =
      inked true (roles commented text) := by
  induction width generalizing gap with
  | zero => exact inked_blank (by decide) (by decide)
  | succ width ih =>
      rw [List.replicate_succ, List.cons_append, inked_blank (by decide) (by decide), ih]

theorem Spaced.inked {spaced : List Char} (rewritten : Spaced text spaced) (commented gap : Bool) :
    Assembly.inked gap (roles commented spaced) = Assembly.inked gap (roles commented text) := by
  induction rewritten generalizing commented gap with
  | nil => rfl
  | keep further ih =>
      rename_i character rest spaced
      obtain ⟨role, next, opening⟩ := exists_opening rest commented character
      rw [opening.unfold.1, (opening.transfer further.head?).unfold.1]
      exact inked_cons_congr (ih next) gap character role
  | tab width further ih =>
      rw [inked_spaces, inked_blank (by decide) (by decide)]
      exact ih commented true

theorem spaced_expandTabsFrom (column : Nat) (text : List Char) :
    Spaced text (Text.expandTabsFrom column text) := by
  induction text generalizing column with
  | nil => exact .nil
  | cons character rest ih =>
      rw [Text.expandTabsFrom]
      split
      · next tab =>
          subst tab
          obtain ⟨width, wide⟩ : ∃ width, 8 - column % 8 = width + 1 := ⟨7 - column % 8, by omega⟩
          dsimp only
          rw [wide]
          exact .tab width (ih _)
      · split <;> exact .keep (ih _)

theorem spaced_withoutTabs (text : List Char) : Spaced text (withoutTabs text) := by
  induction text with
  | nil => exact .nil
  | cons character rest ih =>
      by_cases tab : character = '\t'
      · subst tab
        exact .tab 0 ih
      · rw [withoutTabs, List.map_cons, if_neg tab]
        exact .keep ih

theorem head?_uncommented (commented : Bool)
    (slash : (uncommented commented text).head? = some '/') :
    commented = false ∧ text.head? = some '/' := by
  induction text generalizing commented with
  | nil => cases slash
  | cons character rest ih =>
      obtain ⟨role, next, opening⟩ := exists_opening rest commented character
      rw [uncommented, opening.unfold.1] at slash
      cases opening with
      | commented | semicolon | slashes =>
          cases (ih true slash).1
      | blank blank =>
          cases slash
          cases blank
      | ink => exact ⟨rfl, slash⟩

theorem inked_uncommented (commented gap : Bool) (text : List Char) :
    inked gap (roles false (uncommented commented text)) =
      inked (gap || commented) (roles commented text) := by
  induction text generalizing commented gap with
  | nil => rfl
  | cons character rest ih =>
      obtain ⟨role, next, opening⟩ := exists_opening rest commented character
      rw [uncommented, opening.unfold.1]
      cases opening with
      | commented | semicolon | slashes =>
          refine (ih true gap).trans ?_
          rw [Bool.or_true]
          rfl
      | blank blank =>
          change inked gap (roles false (character :: uncommented false rest)) = _
          rw [roles_blank blank]
          exact ih false true
      | ink dark open_ single =>
          have apart (slash : character = '/') : (uncommented false rest).head? ≠ some '/' :=
            fun second => single slash (head?_uncommented false second).2
          change inked gap (roles false (character :: uncommented false rest)) = _
          rw [(Opening.ink dark open_ apart).unfold.1, Bool.or_false]
          refine inked_cons_congr (fun gap => ?_) gap character .ink
          rw [ih false gap, Bool.or_false]

theorem head?_condensedFrom {separator : Char} (blank : Cursor.isBlank separator = true)
    (slash : (condensedFrom separator false (roles false text)).head? = some '/') :
    text.head? = some '/' := by
  cases text with
  | nil => cases slash
  | cons character rest =>
      obtain ⟨role, next, opening⟩ := exists_opening rest false character
      rw [opening.unfold.1] at slash
      cases opening with
      | semicolon | slashes | blank =>
          cases slash
          cases blank
      | ink => exact slash

theorem inked_condensedFrom {separator : Char} (blank : Cursor.isBlank separator = true)
    (commented : Bool) {gap begun : Bool} (gapped : begun = true → gap = true) (text : List Char) :
    inked gap (roles false (condensedFrom separator begun (roles commented text))) =
      inked gap (roles commented text) := by
  induction text generalizing commented gap begun with
  | nil => rfl
  | cons character rest ih =>
      obtain ⟨role, next, opening⟩ := exists_opening rest commented character
      rw [opening.unfold.1]
      cases opening with
      | ink dark open_ single =>
          have apart (slash : character = '/') :
              (condensedFrom separator false (roles false rest)).head? ≠ some '/' :=
            fun second => single slash (head?_condensedFrom blank second)
          rw [condensedFrom, (Opening.ink dark open_ apart).unfold.1]
          exact inked_cons_congr (fun gap => ih false Bool.false_ne_true.elim) gap character .ink
      | commented | blank | semicolon | slashes =>
          cases begun with
          | true =>
              rw [gapped rfl]
              exact ih _ fun _ => rfl
          | false =>
              change inked gap (roles false (separator :: condensedFrom separator true _)) = _
              rw [roles_blank blank]
              exact ih _ fun _ => rfl

end Rewriting

open Cursor

theorem expandTabs_inked (text : List Char) :
    inked false (roles false (Text.expandTabs text)) = inked false (roles false text) :=
  (spaced_expandTabsFrom 0 text).inked false false

/-- Texts with the same ink consist of the same items. -/
theorem parse_of_inked {source other : String} {items : List Item}
    (same : inked false (roles false other.toList) = inked false (roles false source.toList))
    (parsed : parse source = .ok items) : parse other = .ok items := by
  obtain ⟨final, passed, finished⟩ := parse_eq_ok_iff.mp parsed
  have ends (copy : Cursor) (like : SameInk final copy) : copy.skip.rest = [] := by
    rw [finished_iff, ← like.1, ← finished_iff, finished]
  have like : SameInk (start (Text.expandTabs source.toList))
      (start (Text.expandTabs other.toList)) :=
    ⟨(expandTabs_inked _).trans (same.symm.trans (expandTabs_inked _).symm), rfl⟩
  obtain ⟨after, ⟨passed, finished⟩, _⟩ :=
    (rendering_sameInk.passes_to_end passed ends).copies trivial _ like
  rw [Reading.all_respelled_id] at passed
  exact parse_eq_ok_iff.mpr ⟨after, passed, finished⟩

end Chip8.Assembly
