import Chip8.Proofs.Assembly.Rendition

namespace Chip8.Assembly.Cursor

/-! Two texts of which each is a rendering of the other. A reader finds the same at like places of
    both, and where it finds nothing in the one it finds nothing in the other. So the reading of
    both stops at like places as well. -/

section Options

variable {α β γ δ : Type} {Same : α → β → Prop} {Alike : γ → δ → Prop} {first : Option α}
  {second : Option β}

theorem rel_of_found (forth : ∀ found, first = some found → ∃ other, second = some other ∧
      Same found other)
    (back : ∀ other, second = some other → ∃ found, first = some found) :
    Option.Rel Same first second := by
  cases read : first with
  | some found =>
      obtain ⟨other, readToo, same⟩ := forth found read
      rw [readToo]
      exact .some same
  | none =>
      cases readToo : second with
      | none => exact .none
      | some other =>
          obtain ⟨found, here⟩ := back other readToo
          cases read.symm.trans here

theorem rel_bind {go : α → Option γ} {goToo : β → Option δ} (related : Option.Rel Same first second)
    (further : ∀ found other, Same found other → Option.Rel Alike (go found) (goToo other)) :
    Option.Rel Alike (first.bind go) (second.bind goToo) := by
  cases related with
  | none => exact .none
  | some same => exact further _ _ same

theorem rel_or {others : Option α} {othersToo : Option β} (related : Option.Rel Same first second)
    (otherwise : Option.Rel Same others othersToo) :
    Option.Rel Same (first.or others) (second.or othersToo) := by
  cases related with
  | none => exact otherwise
  | some same => exact .some same

theorem rel_findSome? {go : γ → Option α} {goToo : γ → Option β} (choices : List γ)
    (related : ∀ choice ∈ choices, Option.Rel Same (go choice) (goToo choice)) :
    Option.Rel Same (choices.findSome? go) (choices.findSome? goToo) := by
  induction choices with
  | nil => exact .none
  | cons choice rest ih =>
      obtain ⟨here, there⟩ := List.forall_mem_cons.mp related
      rw [List.findSome?_cons, List.findSome?_cons]
      generalize go choice = found, goToo choice = other at here ⊢
      cases here with
      | none => exact ih there
      | some same => exact .some same

end Options

/-- Each of two texts renders the other, place for place. -/
structure Mutual (Like : Cursor → Cursor → Prop) : Prop where
  forth : Rendering id (fun _ => True) Like
  back : Rendering id (fun _ => True) (flip Like)

/-- Nothing is found in both, or else the same and up to like places. -/
def Agree {α : Type} (Like : Cursor → Cursor → Prop) :
    Option (α × Cursor) → Option (α × Cursor) → Prop :=
  Option.Rel fun found other => found.1 = other.1 ∧ Like found.2 other.2

theorem Agree.found {α : Type} {Like : Cursor → Cursor → Prop} {value : α} {next after : Cursor}
    (like : Like next after) : Agree Like (some (value, next)) (some (value, after)) :=
  .some ⟨rfl, like⟩

theorem Agree.cases {α : Type} {Like : Cursor → Cursor → Prop} {first second : Option (α × Cursor)}
    (agree : Agree Like first second) : first = none ∧ second = none ∨
      ∃ value next after, first = some (value, next) ∧ second = some (value, after) ∧
        Like next after := by
  cases agree with
  | none => exact Or.inl ⟨rfl, rfl⟩
  | some same =>
      rename_i found other
      obtain ⟨value, next⟩ := found
      obtain ⟨_, after⟩ := other
      obtain ⟨rfl, like⟩ := same
      exact Or.inr ⟨value, next, after, rfl, rfl, like⟩

theorem Agree.bind {α β : Type} {Like : Cursor → Cursor → Prop} {first second : Option (α × Cursor)}
    {go goToo : α × Cursor → Option (β × Cursor)} (agree : Agree Like first second)
    (further : ∀ value next after, Like next after →
      Agree Like (go (value, next)) (goToo (value, after))) :
    Agree Like (first.bind go) (second.bind goToo) := by
  rcases agree.cases with ⟨rfl, rfl⟩ | ⟨value, next, after, rfl, rfl, like⟩
  · exact .none
  · exact further value next after like

namespace Mutual

variable {Like : Cursor → Cursor → Prop} (renders : Mutual Like) {cursor copy : Cursor}
  {α : Type} {read : Cursor → Option (α × Cursor)}
include renders

/-- A reader that finds in each rendering what it finds in the text. -/
theorem agree (reread : ∀ {Like : Cursor → Cursor → Prop}, Rendering id (fun _ => True) Like →
      ∀ {cursor value next}, read cursor = some (value, next) →
        Repeats (fun _ => True) Like cursor next fun copy after => read copy = some (value, after))
    (like : Like cursor copy) : Agree Like (read cursor) (read copy) := by
  refine rel_of_found (fun found here => ?_) (fun other there => ?_)
  · obtain ⟨after, there, same⟩ := (reread renders.forth here).copies trivial copy like
    exact ⟨_, there, rfl, same⟩
  · obtain ⟨after, here, _⟩ := (reread renders.back there).copies trivial cursor like
    exact ⟨_, here⟩

theorem agree_place {read : Cursor → Option Cursor}
    (reread : ∀ {Like : Cursor → Cursor → Prop}, Rendering id (fun _ => True) Like →
      ∀ {cursor next}, read cursor = some next →
        Repeats (fun _ => True) Like cursor next fun copy after => read copy = some after)
    (like : Like cursor copy) : Option.Rel Like (read cursor) (read copy) := by
  refine rel_of_found (fun found here => ?_) (fun other there => ?_)
  · exact (reread renders.forth here).copies trivial copy like
  · obtain ⟨after, here, _⟩ := (reread renders.back there).copies trivial cursor like
    exact ⟨_, here⟩

theorem keyword {word : String} (legible : Legible word) (like : Like cursor copy) :
    Option.Rel Like (keyword word cursor) (Cursor.keyword word copy) :=
  renders.agree_place (fun rendering _ _ read => rendering.keyword legible read) like

theorem comma (like : Like cursor copy) :
    Option.Rel Like (symbol ',' cursor) (symbol ',' copy) :=
  renders.agree_place (fun rendering _ _ read => rendering.comma read) like

theorem register (like : Like cursor copy) :
    Agree Like (register cursor) (Cursor.register copy) :=
  renders.agree (fun rendering _ _ _ read => rendering.register read) like

theorem number (like : Like cursor copy) : Agree Like (number cursor) (Cursor.number copy) :=
  renders.agree (fun rendering _ _ _ read => rendering.number read) like

theorem address (like : Like cursor copy) : Agree Like (address cursor) (Cursor.address copy) := by
  refine renders.agree (fun rendering _ operand _ read => ?_) like
  have repeats := rendering.address read
  rwa [Operand.map_respelled_id] at repeats

theorem label (like : Like cursor copy) : Agree Like (label cursor) (Cursor.label copy) := by
  refine renders.agree (fun rendering _ item _ read => ?_) like
  have repeats := rendering.label read
  rwa [Reading.map_respelled_id] at repeats

theorem slots {shapes : List Slot} (legible : ∀ shape ∈ shapes, LegibleSlot shape)
    (like : Like cursor copy) : Agree Like (slots shapes cursor) (Cursor.slots shapes copy) := by
  refine renders.agree (fun rendering _ operands _ read => ?_) like
  have repeats := rendering.slots legible read
  simpa only [Operand.map_respelled_id, List.map_id'] using repeats

theorem afterComma {entry : Cursor → Option (α × Cursor)}
    (agrees : ∀ cursor copy, Like cursor copy → Agree Like (entry cursor) (entry copy))
    (like : Like cursor copy) :
    Agree Like (afterComma entry cursor) (Cursor.afterComma entry copy) :=
  rel_bind (renders.comma like) agrees

omit renders in
theorem many (shortens : Shortens read)
    (agrees : ∀ cursor copy, Like cursor copy → Agree Like (read cursor) (read copy))
    (like : Like cursor copy) :
    (cursor.many read shortens).1 = (copy.many read shortens).1 ∧
      Like (cursor.many read shortens).2 (copy.many read shortens).2 := by
  fun_induction Cursor.many read shortens cursor generalizing copy with
  | case1 cursor absent =>
      rcases (agrees cursor copy like).cases with ⟨_, there⟩ | ⟨_, _, _, here, _⟩
      · rw [many_of_none shortens there]
        exact ⟨rfl, like⟩
      · cases absent.symm.trans here
  | case2 cursor value next found more final again ih =>
      rcases (agrees cursor copy like).cases with ⟨absent, _⟩ | ⟨_, _, after, here, there, like⟩
      · cases absent.symm.trans found
      · cases found.symm.trans here
        obtain ⟨others, stop⟩ := ih like
        rw [again] at others stop
        rw [many_of_some shortens there]
        exact ⟨congrArg (value :: ·) others, stop⟩

theorem listOf {entry : Cursor → Option (α × Cursor)} (shortens : Shortens entry)
    (agrees : ∀ cursor copy, Like cursor copy → Agree Like (entry cursor) (entry copy))
    (like : Like cursor copy) :
    Agree Like (listOf entry shortens cursor) (Cursor.listOf entry shortens copy) := by
  refine (agrees cursor copy like).bind fun value next after like => ?_
  obtain ⟨others, stop⟩ := many (afterComma_shortens shortens)
    (fun _ _ => renders.afterComma agrees) like
  exact .some ⟨congrArg (value :: ·) others, stop⟩

theorem production {production : Production} (listed : production ∈ Production.all)
    (like : Like cursor copy) : Agree Like (production.read cursor) (production.read copy) := by
  have fromTable : ∀ production ∈ Production.all, Legible production.mnemonic := by decide
  have begun := renders.keyword (fromTable production listed) like
  cases production with
  | instruction opcode =>
      refine rel_bind begun fun _ _ like => ?_
      exact (renders.slots (legible_form opcode) like).bind fun operands _ _ like => .found like
  | shift opcode =>
      refine rel_bind begun fun _ _ like => (renders.register like).bind fun x next after like => ?_
      have second := renders.afterComma (fun _ _ => renders.register) like
      unfold Cursor.afterComma at second
      rcases second.cases with ⟨here, there⟩ | ⟨y, final, finalToo, here, there, likeToo⟩ <;>
        simp only [Option.bind_eq_bind] at here there <;> simp only [here, there]
      · exact .found like
      · exact .found likeToo
  | bytes =>
      refine rel_bind begun fun _ _ like => ?_
      exact (renders.listOf number_shortens (fun _ _ => renders.number) like).bind
        fun values _ _ like => .found like
  | words =>
      refine rel_bind begun fun _ _ like => ?_
      exact (renders.listOf address_shortens (fun _ _ => renders.address) like).bind
        fun values _ _ like => .found like

theorem item (like : Like cursor copy) :
    Agree Like (cursor.item Production.all) (copy.item Production.all) :=
  rel_or (renders.label like)
    (rel_findSome? _ fun _ listed => renders.production listed like)

/-- The same items are read from both, up to like places. -/
theorem items (like : Like cursor copy) :
    (cursor.items Production.all).1 = (copy.items Production.all).1 ∧
      Like (cursor.items Production.all).2 (copy.items Production.all).2 :=
  many (item_shortens Production.all) (fun _ _ => renders.item) like

end Mutual

end Chip8.Assembly.Cursor
