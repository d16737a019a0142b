import Chip8.Proofs.Assembly.Choice

namespace Chip8.Assembly

/-! Reading a text item by item, from place to place. -/

namespace Cursor

/-- What is read between two places. -/
inductive Passes (productions : List Production) : Cursor → List Reading → Cursor → Prop
  | stay (cursor : Cursor) : Passes productions cursor [] cursor
  | item {cursor next final : Cursor} {reading : Reading} {readings : List Reading}
      (read : cursor.item productions = some (reading, next))
      (further : Passes productions next readings final) :
      Passes productions cursor (reading :: readings) final

variable {productions : List Production} {cursor other next middle final : Cursor}
  {reading : Reading} {readings more : List Reading}

theorem Passes.append (first : Passes productions cursor readings middle)
    (second : Passes productions middle more final) :
    Passes productions cursor (readings ++ more) final := by
  induction first with
  | stay cursor => exact second
  | item read _ ih => exact .item read (ih second)

theorem items_of_none (absent : cursor.item productions = none) :
    cursor.items productions = ([], cursor) :=
  many_of_none (item_shortens productions) absent

theorem items_of_some
    (read : cursor.item productions = some (reading, next)) :
    cursor.items productions =
      (reading :: (next.items productions).1, (next.items productions).2) :=
  many_of_some (item_shortens productions) read

theorem Passes.items_eq (passed : Passes productions cursor readings middle) :
    cursor.items productions =
      (readings ++ (middle.items productions).1, (middle.items productions).2) := by
  induction passed with
  | stay cursor => rfl
  | item read _ ih => rw [items_of_some read, ih, List.cons_append]

theorem passes_items (productions : List Production) (cursor : Cursor) :
    Passes productions cursor (cursor.items productions).1 (cursor.items productions).2 ∧
      (cursor.items productions).2.item productions = none := by
  induction size : cursor.rest.length using Nat.strongRecOn generalizing cursor with
  | ind length ih =>
      cases read : cursor.item productions with
      | none =>
          rw [items_of_none read]
          exact ⟨.stay cursor, read⟩
      | some result =>
          obtain ⟨reading, next⟩ := result
          have shorter := item_shortens productions cursor reading next read
          obtain ⟨passed, absent⟩ := ih next.rest.length (by omega) next rfl
          rw [items_of_some read]
          exact ⟨.item read passed, absent⟩

/-! Places at which an item begins or the text ends. -/

theorem item_opens (read : cursor.item Production.all = some (reading, next)) :
    ∃ character, cursor.ahead = some character ∧ capital character ∈ nameOpenings := by
  rcases Option.or_eq_some_iff.mp read with labelled | ⟨_, produced⟩
  · obtain ⟨text, after, named, _⟩ := label_eq_some_iff.mp labelled
    obtain ⟨first, more, whole, start, _⟩ := name_eq_some_iff.mp named
    exact ⟨first, by rw [ahead, whole, List.head?_cons], nameStart_opens start⟩
  · obtain ⟨production, listed, found⟩ := List.exists_of_findSome?_eq_some produced
    obtain ⟨after, keyword⟩ := Production.keyword_of_read found
    have fromTable : ∀ production ∈ Production.all, production.mnemonic.toList.take 1 ≠ [] ∧
        (production.mnemonic.toList.take 1).all nameOpenings.contains = true := by decide
    obtain ⟨nonempty, letters⟩ := fromTable production listed
    obtain ⟨character, here, opens⟩ := keyword_opens keyword nonempty
    exact ⟨character, here, List.contains_iff_mem.mp (List.all_eq_true.mp letters _ opens)⟩

theorem Passes.ahead_ne (passed : Passes Production.all cursor readings final) {character : Char}
    (quiet : final.ahead ≠ some character) (mark : capital character ∉ nameOpenings) :
    cursor.ahead ≠ some character := by
  cases passed with
  | stay => exact quiet
  | item read further =>
      obtain ⟨opening, here, opens⟩ := item_opens read
      rw [here]
      intro same
      cases same
      exact mark opens

theorem item_eq_none_of_end (finished : cursor.skip.rest = []) :
    cursor.item Production.all = none := by
  rw [Option.eq_none_iff_forall_ne_some]
  intro found read
  obtain ⟨reading, next⟩ := found
  obtain ⟨character, here, _⟩ := item_opens read
  exact inside_of_ahead here finished

/-! What is read depends on the place up to which is skipped, not on the one before. -/

theorem any_last_skipFrom (kind : Char → Bool) {first second : Option Char}
    (same : first.any kind = second.any kind) (commented : Bool) (characters : List Char) :
    (skipFrom commented first characters).last.any kind =
      (skipFrom commented second characters).last.any kind := by
  cases characters with
  | nil => exact same
  | cons character rest =>
      rw [skipFrom, skipFrom]
      repeat' split
      all_goals first
        | rfl
        | exact same

theorem name_congr (same : cursor.skip.rest = other.skip.rest) : name cursor = name other := by
  refine Option.ext fun result => ?_
  obtain ⟨text, next⟩ := result
  rw [name_eq_some_iff, name_eq_some_iff, same]

theorem keyword_congr {word : String} (nonempty : word.toList ≠ [])
    (same : cursor.skip.rest = other.skip.rest)
    (apart : cursor.skip.last.any clingsToKeyword = other.skip.last.any clingsToKeyword) :
    keyword word cursor = keyword word other := by
  refine Option.ext fun next => ?_
  rw [keyword_eq_some_iff, keyword_eq_some_iff, letters_eq_some_iff, letters_eq_some_iff, same,
    apart]
  refine and_congr_right fun _ => and_congr_left fun _ => exists_congr fun taken =>
    and_congr_right fun _ => and_congr_right fun spelled => ?_
  cases taken with
  | nil => exact absurd spelled.symm nonempty
  | cons first more => rw [getLast?_cons_or, getLast?_cons_or]

theorem read_congr {production : Production} (listed : production ∈ Production.all)
    (same : cursor.skip.rest = other.skip.rest)
    (apart : cursor.skip.last.any clingsToKeyword = other.skip.last.any clingsToKeyword) :
    production.read cursor = production.read other := by
  have keywords := keyword_congr (Production.mnemonic_ne_nil listed) same apart
  cases production with
  | _ => simp only [Production.mnemonic] at keywords; simp only [Production.read, keywords]

theorem item_congr (same : cursor.skip.rest = other.skip.rest)
    (apart : cursor.skip.last.any clingsToKeyword = other.skip.last.any clingsToKeyword) :
    cursor.item Production.all = other.item Production.all := by
  have labels : cursor.label = other.label := by rw [label, label, name_congr same]
  have readers : Production.all.map (·.read cursor) = Production.all.map (·.read other) :=
    List.map_congr_left fun production listed => read_congr listed same apart
  have found := congrArg (List.findSome? id) readers
  rw [List.findSome?_map, List.findSome?_map] at found
  rw [item, item, labels]
  exact congrArg other.label.or found

theorem Passes.congr (passed : Passes Production.all cursor readings final)
    (finished : final.skip.rest = []) (same : cursor.skip.rest = other.skip.rest)
    (apart : cursor.skip.last.any clingsToKeyword = other.skip.last.any clingsToKeyword) :
    ∃ final, Passes Production.all other readings final ∧ final.skip.rest = [] := by
  cases passed with
  | stay => exact ⟨other, .stay other, same.symm.trans finished⟩
  | item read further =>
      rw [item_congr same apart] at read
      exact ⟨final, .item read further, finished⟩

end Cursor

open Cursor

/-- Once everything is read, the readings decide before the place at which they end. -/
theorem parse_of_passes {source : String} {readings : List Reading} {stop : Cursor}
    (passed : Passes Production.all (start (Text.expandTabs source.toList)) readings stop)
    (absent : stop.item Production.all = none) :
    parse source = gather readings >>= fun items =>
      if stop.skip.rest = [] then .ok items
      else .error (.report (malformedAt (Text.expandTabs source.toList)
        ((Text.expandTabs source.toList).length - stop.skip.rest.length))) := by
  simp only [parse, parseWith, List.isEmpty_iff]
  rw [passed.items_eq, items_of_none absent, List.append_nil]

theorem parse_eq_ok_iff {source : String} {items : List Item} :
    parse source = .ok items ↔
      ∃ final, Passes Production.all (start (Text.expandTabs source.toList)) (items.map .ok) final ∧
        final.skip.rest = [] := by
  constructor
  · intro parsed
    obtain ⟨passed, absent⟩ :=
      passes_items Production.all (start (Text.expandTabs source.toList))
    rw [parse_of_passes passed absent] at parsed
    obtain ⟨found, gathered, ended⟩ := bind_eq_ok_iff.mp parsed
    split at ended
    · next finished =>
        cases ended
        exact ⟨_, gather_eq_ok_iff.mp gathered ▸ passed, finished⟩
    · contradiction
  · intro found
    obtain ⟨final, passed, finished⟩ := found
    rw [parse_of_passes passed (item_eq_none_of_end finished), gather_map_ok]
    exact if_pos finished

theorem parse_eq_error {source : String} {items : List Item} {stop : Cursor}
    (passed : Passes Production.all (start (Text.expandTabs source.toList)) (items.map .ok) stop)
    (absent : stop.item Production.all = none) (unfinished : stop.skip.rest ≠ []) :
    parse source = .error (.report (malformedAt (Text.expandTabs source.toList)
      ((Text.expandTabs source.toList).length - stop.skip.rest.length))) := by
  rw [parse_of_passes passed absent, gather_map_ok]
  exact if_neg unfinished

/-- A text that cannot be parsed is read up to a place in it where nothing more can be read. Either
    a number on the way is not read, or the text does not end there. -/
theorem stop_of_parse_eq_error {source : String} {reason : Failure}
    (failed : parse source = .error reason) :
    ∃ readings stop,
      Passes Production.all (start (Text.expandTabs source.toList)) readings stop ∧
        stop.item Production.all = none ∧
          (gather readings = .error reason ∨
            ∃ items : List Item, readings = items.map .ok ∧ stop.skip.rest ≠ [] ∧
              reason = .report (malformedAt (Text.expandTabs source.toList)
                ((Text.expandTabs source.toList).length - stop.skip.rest.length))) := by
  obtain ⟨passed, stuck⟩ := passes_items Production.all (start (Text.expandTabs source.toList))
  refine ⟨_, _, passed, stuck, ?_⟩
  rw [parse_of_passes passed stuck] at failed
  rcases bind_eq_error_iff.mp failed with unread | ⟨items, gathered, ended⟩
  · exact Or.inl unread
  · split at ended
    · contradiction
    · next unfinished =>
        cases ended
        exact Or.inr ⟨items, gather_eq_ok_iff.mp gathered, unfinished, rfl⟩

end Chip8.Assembly
