import Chip8.Proofs.Assembly.Printing
import Chip8.Proofs.Assembly.Spacing
import Chip8.Proofs.Assembly.Unread

namespace Chip8.Assembly

/-! Where the reading of a text stops for good. What stands before that place can be read by itself,
    and gives the same items. -/

def OpensComment (text : List Char) : Prop :=
  text.head? = some ';' ∨ ∃ rest, text = '/' :: '/' :: rest

/-- A comment begins at the place between the two texts or before it, in the same line. -/
def Commented (before after : List Char) : Prop :=
  ∃ front comment, before = front ++ comment ∧ OpensComment (comment ++ after) ∧ '\n' ∉ comment

namespace Cursor

/-- A place in a text that is not inside a comment, though one may begin there. -/
structure Clear (text : List Char) (cursor : Cursor) (before : List Char) : Prop where
  whole : text = before ++ cursor.rest
  last : cursor.last = before.getLast?
  outside : ∀ front comment, before = front ++ comment → OpensComment (comment ++ cursor.rest) →
    '\n' ∉ comment → comment = []

variable {text before : List Char} {cursor next : Cursor} {character : Char} {rest : List Char}

theorem not_opensComment (open_ : character ≠ ';')
    (single : character = '/' → rest.head? ≠ some '/') : ¬ OpensComment (character :: rest) := by
  intro opens
  rcases opens with semicolon | ⟨more, slashes⟩
  · cases semicolon
    exact open_ rfl
  · cases slashes
    exact single rfl rfl

theorem not_opensComment_of_blank (blank : isBlank character = true) :
    ¬ OpensComment (character :: rest) := by
  apply not_opensComment
  · intro semicolon
    subst semicolon
    cases blank
  · intro slash
    subst slash
    cases blank

theorem not_opensComment_of_ink (opening : Opening rest false character .ink false) :
    ¬ OpensComment (character :: rest) := by
  cases opening with
  | ink _ open_ single => exact not_opensComment open_ single

/-- A character that begins no comment, in a place that is inside none. -/
theorem Clear.step {last : Option Char} (clear : Clear text ⟨last, character :: rest⟩ before)
    (single : ¬ OpensComment (character :: rest)) :
    Clear text ⟨some character, rest⟩ (before ++ [character]) where
  whole := by rw [clear.whole]; simp
  last := by simp
  outside front comment split opens free := by
    rcases List.eq_nil_or_concat' comment with rfl | ⟨comment, final, rfl⟩
    · rfl
    · rw [← List.append_assoc] at split
      obtain ⟨rfl, same⟩ := List.append_inj' split rfl
      cases same
      have none := clear.outside front comment rfl (by simpa using opens)
        fun member => free (List.mem_append_left _ member)
      subst none
      exact absurd opens single

/-- Behind a line feed there is no comment yet. -/
theorem clear_newline (whole : text = before ++ '\n' :: rest) :
    Clear text ⟨some '\n', rest⟩ (before ++ ['\n']) where
  whole := by rw [whole]; simp
  last := by simp
  outside front comment split opens free := by
    rcases List.eq_nil_or_concat' comment with rfl | ⟨comment, final, rfl⟩
    · rfl
    · rw [← List.append_assoc] at split
      obtain ⟨_, same⟩ := List.append_inj' split rfl
      cases same
      exact absurd (by simp) free

theorem skipFrom_clear (commented : Bool) (last : Option Char) (whole : text = before ++ rest)
    (ending : last = before.getLast?)
    (clear : commented = false → Clear text ⟨last, rest⟩ before) :
    let place := skipFrom commented last rest
    place.rest = [] ∨ ∃ character more, place.rest = character :: more ∧
      Opening more false character .ink false ∧ ∃ before, Clear text place before := by
  induction rest generalizing commented last before with
  | nil => exact Or.inl rfl
  | cons character rest ih =>
      obtain ⟨role, next, opening⟩ := exists_opening rest commented character
      dsimp only
      rw [opening.unfold.2]
      have further : text = (before ++ [character]) ++ rest := by simpa using whole
      cases opening with
      | ink dark open_ single =>
          exact Or.inr ⟨character, rest, rfl, .ink dark open_ single, before, clear rfl⟩
      | commented | semicolon | slashes => exact ih true _ further (by simp) nofun
      | blank blank ends =>
          refine ih false _ further (by simp) fun _ => ?_
          cases commented with
          | true =>
              obtain rfl := ends rfl
              exact clear_newline whole
          | false => exact (clear rfl).step (not_opensComment_of_blank blank)

theorem Clear.skip (clear : Clear text cursor before) (inside : cursor.skip.rest ≠ []) :
    ∃ character more, cursor.skip.rest = character :: more ∧
      Opening more false character .ink false ∧ ∃ before, Clear text cursor.skip before := by
  rcases skipFrom_clear false cursor.last clear.whole clear.last fun _ => clear with
    finished | found
  · exact absurd finished inside
  · exact found

/-- The places of a text at which a reader can be, each as its own copy. -/
theorem rendering_clear (text : List Char) :
    Rendering id (fun _ => True) fun cursor copy =>
      copy = cursor ∧ ∃ before, Clear text cursor before where
  recased _ := Or.inl rfl
  skip_within _ _ _ := trivial
  eat_within _ _ _ _ _ := trivial
  last_like _ _ like := by rw [like.1]
  skip_like cursor copy like inside _ := by
    obtain ⟨rfl, before, clear⟩ := like
    obtain ⟨_, _, _, _, further⟩ := clear.skip inside
    exact ⟨rfl, further⟩
  eat_like last character rest copy like ink _ := by
    obtain ⟨rfl, before, clear⟩ := like
    have single : ¬ OpensComment (character :: rest) :=
      not_opensComment_of_ink (opening_of_isInk ink)
    exact ⟨rest, rfl, rfl, _, clear.step single⟩
  eat_back cursor copy character more like whole ink := by
    obtain ⟨rfl, before, clear⟩ := like
    obtain ⟨last, rest⟩ := copy
    cases whole
    have single : ¬ OpensComment (character :: more) :=
      not_opensComment_of_ink (opening_of_isInk ink)
    exact ⟨character, more, rfl, rfl, rfl, _, clear.step single⟩

/-! The text in front of a place. -/

/-- The same place in the text without its tail. -/
def Cut (tail : List Char) (cursor copy : Cursor) : Prop :=
  cursor.last = copy.last ∧ cursor.rest = copy.rest ++ tail

theorem skipFrom_suffix (commented : Bool) (last : Option Char) (text : List Char) :
    (skipFrom commented last text).rest <:+ text := by
  induction text generalizing commented last with
  | nil => exact List.suffix_rfl
  | cons character rest ih =>
      obtain ⟨role, next, opening⟩ := exists_opening rest commented character
      rw [opening.unfold.2]
      split
      · exact List.suffix_rfl
      · exact (ih next _).trans (List.suffix_cons ..)

theorem skipFrom_stays {commented : Bool} {last : Option Char}
    (long : text <:+ (skipFrom commented last text).rest) :
    skipFrom commented last text = ⟨last, text⟩ := by
  cases text with
  | nil => rfl
  | cons character rest =>
      obtain ⟨role, next, opening⟩ := exists_opening rest commented character
      rw [opening.unfold.2] at long ⊢
      split at long
      · next ink => rw [if_pos ink]
      · have shorter := long.length_le.trans (skipFrom_rest_length_le next _ rest)
        simp at shorter

/-- Two slashes are not torn apart, because the skipping would have gone on into the tail. -/
theorem opening_cut {tail front : List Char} {commented next : Bool} {role : Role}
    {last : Option Char} (opening : Opening (front ++ tail) commented character role next)
    (within : tail <:+ (skipFrom commented last (character :: (front ++ tail))).rest) :
    Opening front commented character role next := by
  cases opening with
  | commented other => exact .commented other
  | blank blank ends => exact .blank blank ends
  | semicolon => exact .semicolon
  | slashes second =>
      cases front with
      | nil =>
          obtain ⟨more, rfl⟩ := List.head?_eq_some_iff.mp second
          have opened : Opening more true '/' .comment true := .commented (by decide)
          rw [(Opening.slashes second).unfold.2, if_neg (by simp), List.nil_append,
            opened.unfold.2, if_neg (by simp)] at within
          have shorter := within.length_le.trans (skipFrom_rest_length_le true _ more)
          simp at shorter
      | cons first front => exact .slashes second
  | ink dark open_ single =>
      refine .ink dark open_ fun slash second => single slash ?_
      cases front with
      | nil => cases second
      | cons first front => exact second

theorem skipFrom_cut {tail front more : List Char} (commented : Bool) (last : Option Char)
    (within : (skipFrom commented last (front ++ tail)).rest = more ++ tail) :
    skipFrom commented last front = ⟨(skipFrom commented last (front ++ tail)).last, more⟩ := by
  induction front generalizing commented last with
  | nil =>
      rw [List.nil_append] at within ⊢
      have stays := skipFrom_stays (⟨more, within.symm⟩ : tail <:+ _)
      rw [stays] at within ⊢
      rw [List.self_eq_append_left.mp within]
      rfl
  | cons character front ih =>
      obtain ⟨role, next, opening⟩ := exists_opening (front ++ tail) commented character
      have cut := opening_cut opening ⟨more, within.symm⟩
      rw [List.cons_append, opening.unfold.2] at within ⊢
      rw [cut.unfold.2]
      by_cases ink : role = .ink
      · simp only [if_pos ink] at within ⊢
        rw [← List.cons_append, List.append_left_inj] at within
        rw [within]
      · simp only [if_neg ink] at within ⊢
        exact ih next _ within

theorem skip_cut {tail more : List Char} {copy : Cursor} (like : Cut tail cursor copy)
    (within : cursor.skip.rest = more ++ tail) : copy.skip = ⟨cursor.skip.last, more⟩ := by
  obtain ⟨last, rest⟩ := cursor
  obtain ⟨rfl, rfl⟩ := like
  exact skipFrom_cut false copy.last within

theorem rendering_cut (tail : List Char) :
    Rendering id (fun cursor => tail <:+ cursor.rest) (Cut tail) where
  recased _ := Or.inl rfl
  skip_within cursor _ within := within.trans (skipFrom_suffix false cursor.last cursor.rest)
  eat_within _ _ _ _ within := within.trans (List.suffix_cons ..)
  last_like _ _ like := by rw [like.1]
  skip_like cursor copy like _ within := by
    obtain ⟨more, whole⟩ := within
    rw [skip_cut like whole.symm]
    exact ⟨rfl, whole.symm⟩
  eat_like last character rest copy like ink within := by
    obtain ⟨copyLast, front⟩ := copy
    obtain ⟨_, whole⟩ := like
    cases front with
    | nil =>
        have whole : character :: rest = tail := whole
        have long : tail.length ≤ rest.length := within.length_le
        rw [← whole, List.length_cons] at long
        omega
    | cons first more =>
        cases whole
        exact ⟨more, rfl, rfl, rfl⟩
  eat_back cursor copy character more like whole ink := by
    obtain ⟨last, rest⟩ := cursor
    obtain ⟨rfl, rfl⟩ := like
    refine ⟨character, more ++ tail, by rw [whole]; rfl, rfl, rfl, rfl⟩

/-- A passage that stops at ink stops at a clear place. -/
theorem Passes.stop {readings : List Reading} {stop : Cursor}
    (passed : Passes Production.all (start text) readings stop) (unfinished : stop.skip.rest ≠ []) :
    ∃ before character after, text = before ++ character :: after ∧
      stop.skip = ⟨before.getLast?, character :: after⟩ ∧ isBlank character = false ∧
        ¬ Commented before (character :: after) ∧ stop.skip.skip = stop.skip := by
  have begun : Clear text (start text) [] := by
    refine ⟨rfl, rfl, fun front comment split _ _ => ?_⟩
    exact (List.append_eq_nil_iff.mp split.symm).2
  obtain ⟨_, _, _, before, clear⟩ :=
    ((rendering_clear text).reaches passed).copies trivial _ ⟨rfl, [], begun⟩
  obtain ⟨character, after, whole, opening, front, there⟩ := clear.skip unfinished
  generalize stop.skip = place at whole there
  obtain ⟨last, rest⟩ := place
  cases whole
  refine ⟨front, character, after, there.whole, ?_, ?_, ?_, ?_⟩
  · exact congrArg (Cursor.mk · (character :: after)) there.last
  · cases opening with
    | ink dark => exact dark
  · intro commented
    obtain ⟨front, comment, split, opens, free⟩ := commented
    have none := there.outside front comment split opens free
    subst none
    exact not_opensComment_of_ink opening opens
  · exact (opening.unfold.2 last).trans (if_pos rfl)

/-- What is passed before a stop is passed in the text that ends there. -/
theorem Passes.before_stop {readings : List Reading} {stop : Cursor} {before : List Char}
    (passed : Passes Production.all (start text) readings stop)
    (whole : text = before ++ stop.skip.rest) :
    ∃ final, Passes Production.all (start before) readings final ∧ final.skip.rest = [] := by
  have ends (copy : Cursor) (like : Cut stop.skip.rest stop copy) : copy.skip.rest = [] := by
    rw [skip_cut like (List.nil_append _).symm]
  have within : stop.skip.rest <:+ stop.rest := skipFrom_suffix false stop.last stop.rest
  have repeats := (rendering_cut stop.skip.rest).passes_to_end passed ends
  obtain ⟨final, ⟨passed, finished⟩, _⟩ := repeats.copies within (start before) ⟨rfl, whole⟩
  rw [Reading.all_respelled_id] at passed
  exact ⟨final, passed, finished⟩

end Cursor

open Cursor

theorem assembleItems_ne_malformed {items : List Item} (shaped : ∀ item ∈ items, item.Shaped)
    (line column : Nat) (quoted : String) :
    assembleItems items ≠ .error (.report (.malformed line column quoted)) := by
  intro failed
  obtain ⟨reason, reported, told⟩ := (assembleItems_eq_error_iff shaped).mp failed
  obtain ⟨_, same⟩ | ⟨_, other⟩ := AsmError.raised_eq_iff.mp told
  swap
  · cases other
  cases same
  rcases reported with ⟨_, _, _, _, _, fault⟩ | ⟨_, _, item, _, _, _, fault⟩
  · cases fault with
    | bytes first =>
        obtain ⟨_, _, _, _, _, fault⟩ := first
        cases fault
  · cases fault with
    | unknown first | range _ first =>
        obtain ⟨_, _, _, _, _, fault⟩ := first
        cases fault
    | words first =>
        obtain ⟨_, _, _, _, _, fault⟩ := first
        cases fault with
        | unknown undefined => cases undefined

/-- Lines are counted by the line feeds before a place, and columns from the last of them. -/
theorem malformedAt_place (before after : List Char) :
    ∃ lines here, before = lines ++ here ∧ (lines = [] ∨ lines.getLast? = some '\n') ∧
      '\n' ∉ here ∧ ∃ quoted, malformedAt (before ++ after) before.length =
        .malformed (1 + before.count '\n') (1 + here.length) quoted := by
  let lines := (before.reverse.dropWhile (· != '\n')).reverse
  let here := (before.reverse.takeWhile (· != '\n')).reverse
  let quoted := String.ofList (Text.trim (Text.lineAround (before ++ after) before.length))
  refine ⟨lines, here, ?_, ?_, fun member => ?_, quoted, ?_⟩
  · rw [← List.reverse_append, List.takeWhile_append_dropWhile, List.reverse_reverse]
  · rw [List.reverse_eq_nil_iff, List.getLast?_reverse]
    have stops := List.head?_dropWhile_not (· != '\n') before.reverse
    cases remaining : before.reverse.dropWhile (· != '\n') with
    | nil => exact Or.inl rfl
    | cons first more =>
        rw [remaining] at stops
        exact Or.inr (by simpa using stops)
  · simpa using List.mem_takeWhile_imp (List.mem_reverse.mp member)
  · rw [malformedAt, Text.lineNumber, Text.columnNumber, Text.lineStart, List.take_left,
      Nat.add_comm 1, Nat.add_comm 1]

theorem tabless_expandTabsFrom (column : Nat) (text : List Char) :
    '\t' ∉ Text.expandTabsFrom column text := by
  induction text generalizing column with
  | nil => simp [Text.expandTabsFrom]
  | cons character rest ih =>
      rw [Text.expandTabsFrom]
      split
      · simp [ih]
      · next other =>
          split <;> simp [ih, Ne.symm other]

theorem parse_before_stop {before : List Char} (tabless : '\t' ∉ before)
    {items : List Item} {final : Cursor}
    (passed : Passes Production.all (start before) (items.map .ok) final)
    (finished : final.skip.rest = []) : parse (String.ofList before) = .ok items := by
  rw [parse_eq_ok_iff, String.toList_ofList, expandTabs_tabless tabless]
  exact ⟨final, passed, finished⟩

/-- A text that can be read to its end is not malformed, not even if a number in it is not read. -/
theorem parse_ne_malformed {source : String} {readings : List Reading} {final : Cursor}
    (passed : Passes Production.all (start (Text.expandTabs source.toList)) readings final)
    (finished : final.skip.rest = []) (line column : Nat) (quoted : String) :
    parse source ≠ .error (.report (.malformed line column quoted)) := by
  intro failed
  rw [parse_of_passes passed (item_eq_none_of_end finished)] at failed
  simp only [if_pos finished] at failed
  obtain ⟨_, other, _⟩ := legal_gather passed.legal _ (bind_ok_eq_error_iff.mp failed)
  cases other

/-- A syntax error is reported at the first place where nothing can be read. No label and no
    production matches there, the text in front of it can be read by itself and gives the items read
    so far, and lines and columns are counted up to it in the text with its tabs expanded. A text
    that can be read to its end has no syntax error. -/
theorem assemble_malformed (source : String) :
    let text := Text.expandTabs source.toList
    (∀ line column quoted, assemble source = .error (.report (.malformed line column quoted)) →
      (AsmError.malformed line column quoted).message = "Syntax error at line " ++
        Numeral.decimal line ++ ", column " ++ Numeral.decimal column ++ ": " ++ quoted ∧
      ∃ before character after items stop, text = before ++ character :: after ∧
        isBlank character = false ∧ ¬ Commented before (character :: after) ∧
        Passes Production.all (start text) (items.map .ok) stop ∧
        stop.skip = ⟨before.getLast?, character :: after⟩ ∧ stop.skip.label = none ∧
        (∀ production ∈ Production.all, production.read stop.skip = none) ∧
        parse (String.ofList before) = .ok items ∧ line = 1 + before.count '\n' ∧
        ∃ lines here, before = lines ++ here ∧ (lines = [] ∨ lines.getLast? = some '\n') ∧
          '\n' ∉ here ∧ column = 1 + here.length) ∧
    ((∃ readings final, Passes Production.all (start text) readings final ∧
        final.skip.rest = []) →
      ∀ line column quoted,
        assemble source ≠ .error (.report (.malformed line column quoted))) := by
  intro text
  constructor
  · intro line column quoted failed
    refine ⟨rfl, ?_⟩
    have unparsed : parse source = .error (.report (.malformed line column quoted)) := by
      rcases bind_eq_error_iff.mp failed with unparsed | ⟨items, parsed, refused⟩
      · exact unparsed
      · exact absurd refused (assembleItems_ne_malformed (shaped_of_parse parsed) _ _ _)
    obtain ⟨readings, stop, passed, stuck, unread | ⟨items, rfl, unfinished, reported⟩⟩ :=
      stop_of_parse_eq_error unparsed
    · obtain ⟨_, other, _⟩ := legal_gather passed.legal _ unread
      cases other
    change Passes Production.all (start text) _ stop at passed
    have reported := Failure.report.inj reported
    change _ = malformedAt text (text.length - stop.skip.rest.length) at reported
    obtain ⟨before, character, after, whole, place, dark, clear, again⟩ := passed.stop unfinished
    have rest : stop.skip.rest = character :: after := by rw [place]
    have nothing : stop.skip.item Production.all = none := by
      rw [← stuck]
      exact item_congr (by rw [again]) (by rw [again])
    obtain ⟨noLabel, noProduction⟩ := Option.or_eq_none_iff.mp nothing
    have noProduction := List.findSome?_eq_none_iff.mp noProduction
    have tabless : '\t' ∉ before := by
      have none : '\t' ∉ text := tabless_expandTabsFrom 0 source.toList
      rw [whole] at none
      exact fun member => none (List.mem_append_left _ member)
    obtain ⟨final, passedBefore, finished⟩ := passed.before_stop (rest ▸ whole)
    have parsed := parse_before_stop tabless passedBefore finished
    have offset : text.length - stop.skip.rest.length = before.length := by
      rw [rest, whole, List.length_append, Nat.add_sub_cancel]
    obtain ⟨lines, here, split, begins, single, quoted, counted⟩ :=
      malformedAt_place before (character :: after)
    rw [offset, whole, counted] at reported
    cases reported
    exact ⟨before, character, after, items, stop, whole, dark, clear, passed, place, noLabel,
      noProduction, parsed, rfl, lines, here, split, begins, single, rfl⟩
  · intro readable line column quoted failed
    obtain ⟨readings, final, passed, finished⟩ := readable
    rcases bind_eq_error_iff.mp failed with unparsed | ⟨items, parsed, refused⟩
    · exact parse_ne_malformed passed finished _ _ _ unparsed
    · exact assembleItems_ne_malformed (shaped_of_parse parsed) _ _ _ refused

/-- The comma is given back when no register follows it, and is where nothing can be read. Without
    it the same lines can be read to their end. -/
theorem assemble_malformed_comma :
    assemble "CLS\nSHR V1,\t; no register\n RET" =
        .error (.report (.malformed 2 7 "SHR V1, ; no register")) ∧
      (AsmError.malformed 2 7 "SHR V1, ; no register").message =
        "Syntax error at line 2, column 7: SHR V1, ; no register" ∧
      (∃ before items, parse (String.ofList before) = .ok items ∧ before.count '\n' = 1) ∧
      ∀ line column quoted, assemble "CLS\nSHR V1\t; no register\n RET" ≠
        .error (.report (.malformed line column quoted)) := by
  have failed : assemble "CLS\nSHR V1,\t; no register\n RET" =
      .error (.report (.malformed 2 7 "SHR V1, ; no register")) := by decide +kernel
  have parsed : parse "CLS\nSHR V1\t; no register\n RET" =
      .ok [.instruction (.bare .clearScreen) [],
        .instruction (.pair .shiftRight) [.number 1, .number 0],
        .instruction (.bare .ret) []] := by decide +kernel
  obtain ⟨told, before, _, _, items, _, _, _, _, _, _, _, _, readable, line, _⟩ :=
    (assemble_malformed _).1 _ _ _ failed
  obtain ⟨final, passed, finished⟩ := parse_eq_ok_iff.mp parsed
  exact ⟨failed, told.trans (by decide +kernel), ⟨before, items, readable, by omega⟩,
    (assemble_malformed _).2 ⟨_, final, passed, finished⟩⟩

end Chip8.Assembly
