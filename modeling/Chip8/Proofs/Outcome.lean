import Mathlib

namespace Chip8

/-! Outcomes of several acts in a row, the first of which to fail ends them. -/

theorem bind_eq_ok_iff {α β ε : Type} {first : Except ε α} {next : α → Except ε β} {result : β} :
    (first >>= next) = .ok result ↔ ∃ value, first = .ok value ∧ next value = .ok result := by
  cases first <;> simp [bind, Except.bind]

theorem bind_ok_eq_error_iff {α β ε : Type} {first : Except ε α} {change : α → β} {refusal : ε} :
    (first >>= fun value => .ok (change value)) = .error refusal ↔ first = .error refusal := by
  cases first <;> simp [bind, Except.bind]

theorem map_eq_ok_iff {α β ε : Type} {outcome : Except ε α} {change : α → β} {result : β} :
    outcome.map change = .ok result ↔ ∃ value, outcome = .ok value ∧ result = change value := by
  cases outcome <;> simp [Except.map, eq_comm]

theorem of_mapError_eq_ok {α ε δ : Type} {outcome : Except ε α} {change : ε → δ} {result : α}
    (done : outcome.mapError change = .ok result) : outcome = .ok result := by
  cases outcome with
  | error refusal => cases done
  | ok value =>
      cases done
      rfl

theorem mapM_eq_ok_iff {α β ε : Type} {act : α → Except ε β} {inputs : List α} {results : List β} :
    inputs.mapM act = .ok results ↔
      List.Forall₂ (fun input result => act input = .ok result) inputs results := by
  induction inputs generalizing results with
  | nil => cases results <;> simp [pure, Except.pure]
  | cons input rest ih =>
      rw [List.mapM_cons, List.forall₂_cons_left_iff]
      simp only [bind_eq_ok_iff, ih, pure, Except.pure, Except.ok.injEq]
      refine ⟨fun done => ?_, fun matched => ?_⟩
      · obtain ⟨result, first, others, matched, joined⟩ := done
        exact ⟨result, others, first, matched, joined.symm⟩
      · obtain ⟨result, others, first, matched, joined⟩ := matched
        exact ⟨result, first, others, matched, joined.symm⟩

/-- Where every input alone decides its result, the results are those of a map. -/
theorem mapM_eq_ok_iff_map {α β ε : Type} {act : α → Except ε β} {valid : α → Prop}
    {image : α → β} (each : ∀ input result, act input = .ok result ↔
      valid input ∧ result = image input) {inputs : List α} {results : List β} :
    inputs.mapM act = .ok results ↔
      (∀ input ∈ inputs, valid input) ∧ results = inputs.map image := by
  rw [mapM_eq_ok_iff]
  induction inputs generalizing results with
  | nil => simp
  | cons input rest ih =>
      rw [List.forall₂_cons_left_iff, List.forall_mem_cons, List.map_cons]
      constructor
      · rintro ⟨result, others, first, matched, rfl⟩
        obtain ⟨here, rfl⟩ := (each input result).mp first
        obtain ⟨further, rfl⟩ := ih.mp matched
        exact ⟨⟨here, further⟩, rfl⟩
      · rintro ⟨⟨here, further⟩, rfl⟩
        exact ⟨_, _, (each input _).mpr ⟨here, rfl⟩, ih.mpr ⟨further, rfl⟩, rfl⟩

theorem mapM_agree {α β ε : Type} {act other : α → Except ε β} {inputs : List α}
    {results : List β}
    (agree : ∀ input ∈ inputs, ∀ result, act input = .ok result → other input = .ok result)
    (done : inputs.mapM act = .ok results) : inputs.mapM other = .ok results := by
  rw [mapM_eq_ok_iff] at done ⊢
  induction done with
  | nil => exact .nil
  | cons first rest ih =>
      obtain ⟨here, further⟩ := List.forall_mem_cons.mp agree
      exact .cons (here _ first) (ih further)

theorem mapM_map_agree {α β ε : Type} {act other : α → Except ε β} {change : α → α}
    {inputs : List α} {results : List β}
    (agree : ∀ input ∈ inputs, ∀ result, act input = .ok result → other (change input) = .ok result)
    (done : inputs.mapM act = .ok results) : (inputs.map change).mapM other = .ok results := by
  rw [List.mapM_map]
  exact mapM_agree agree done

theorem mapM_split {α β ε : Type} {act : α → Except ε β} {before after : List α} {input : α}
    {results : List β} (done : (before ++ input :: after).mapM act = .ok results) :
    ∃ front result back, results = front ++ result :: back ∧ before.mapM act = .ok front ∧
      act input = .ok result := by
  rw [List.mapM_append] at done
  obtain ⟨front, earlier, done⟩ := bind_eq_ok_iff.mp done
  obtain ⟨others, later, joined⟩ := bind_eq_ok_iff.mp done
  cases joined
  rw [List.mapM_cons] at later
  obtain ⟨result, here, later⟩ := bind_eq_ok_iff.mp later
  obtain ⟨back, _, joined⟩ := bind_eq_ok_iff.mp later
  cases joined
  exact ⟨front, result, back, rfl, earlier, here⟩

theorem bind_eq_error_iff {α β ε : Type} {first : Except ε α} {next : α → Except ε β}
    {refusal : ε} :
    (first >>= next) = .error refusal ↔
      first = .error refusal ∨ ∃ value, first = .ok value ∧ next value = .error refusal := by
  cases first <;> simp [bind, Except.bind]

theorem exists_eq_ok_iff {α ε : Type} {outcome : Except ε α} :
    (∃ value, outcome = .ok value) ↔ ∀ refusal, outcome ≠ .error refusal := by
  cases outcome <;> simp

/-! The first fault in a list. -/

section FirstFault

variable {α β ε : Type} {fault : List α → α → ε → Prop} {entry : α} {entries : List α} {reason : ε}

/-- No entry has a fault, each being judged by the entries before it. -/
def Faultless (fault : List α → α → ε → Prop) (entries : List α) : Prop :=
  ∀ before entry after, entries = before ++ entry :: after → ∀ reason, ¬ fault before entry reason

/-- A fault of an entry, where no earlier entry has one. -/
def FirstFault (fault : List α → α → ε → Prop) (entries : List α) (reason : ε) : Prop :=
  ∃ before entry after, entries = before ++ entry :: after ∧ Faultless fault before ∧
    fault before entry reason

theorem faultless_nil : Faultless fault [] := by
  intro before entry after split
  simp at split

theorem faultless_cons :
    Faultless fault (entry :: entries) ↔
      (∀ reason, ¬ fault [] entry reason) ∧
        Faultless (fun before => fault (entry :: before)) entries := by
  constructor
  · intro sound
    refine ⟨sound [] entry entries rfl, fun before later after split => ?_⟩
    exact sound (entry :: before) later after (congrArg (entry :: ·) split)
  · intro sound before later after split
    obtain ⟨here, further⟩ := sound
    cases before with
    | nil =>
        obtain ⟨rfl, _⟩ := List.cons.inj split
        exact here
    | cons first before =>
        obtain ⟨rfl, rest⟩ := List.cons.inj split
        exact further before later after rest

theorem firstFault_nil : ¬ FirstFault fault [] reason := by
  intro found
  obtain ⟨before, entry, after, split, _⟩ := found
  simp at split

theorem firstFault_cons :
    FirstFault fault (entry :: entries) reason ↔
      fault [] entry reason ∨
        (∀ other, ¬ fault [] entry other) ∧
          FirstFault (fun before => fault (entry :: before)) entries reason := by
  constructor
  · intro found
    obtain ⟨before, later, after, split, sound, here⟩ := found
    cases before with
    | nil =>
        obtain ⟨rfl, _⟩ := List.cons.inj split
        exact Or.inl here
    | cons first before =>
        obtain ⟨rfl, rest⟩ := List.cons.inj split
        obtain ⟨first, earlier⟩ := faultless_cons.mp sound
        exact Or.inr ⟨first, before, later, after, rest, earlier, here⟩
  · intro found
    rcases found with here | ⟨first, before, later, after, split, sound, here⟩
    · exact ⟨[], entry, entries, rfl, faultless_nil, here⟩
    · exact ⟨entry :: before, later, after, congrArg (entry :: ·) split,
        faultless_cons.mpr ⟨first, sound⟩, here⟩

/-- Where there is a fault at all there is a first one. -/
theorem faultless_iff : Faultless fault entries ↔ ∀ reason, ¬ FirstFault fault entries reason := by
  induction entries generalizing fault with
  | nil => simp [faultless_nil, firstFault_nil]
  | cons entry rest ih =>
      simp only [faultless_cons, firstFault_cons, ih, not_or, not_and, forall_and]
      refine and_congr_right fun first => ⟨fun sound reason _ => sound reason, ?_⟩
      exact fun sound reason => sound reason first

/-- Entries that are judged each by itself. -/
theorem not_firstFault_iff {fault : α → ε → Prop} :
    (∀ reason, ¬ FirstFault (fun _ => fault) entries reason) ↔
      ∀ entry ∈ entries, ∀ reason, ¬ fault entry reason := by
  rw [← faultless_iff]
  constructor
  · intro sound entry member
    obtain ⟨before, after, split⟩ := List.append_of_mem member
    exact sound before entry after split
  · intro sound before entry after split
    exact sound entry (by simp [split])

theorem FirstFault.congr {other : List α → α → ε → Prop}
    (same : ∀ before entry after, entries = before ++ entry :: after →
      ∀ reason, fault before entry reason ↔ other before entry reason) :
    FirstFault fault entries reason ↔ FirstFault other entries reason := by
  induction entries generalizing fault other with
  | nil => simp [firstFault_nil]
  | cons entry rest ih =>
      have first := same [] entry rest rfl
      have further := ih fun before later after split =>
        same (entry :: before) later after (congrArg (entry :: ·) split)
      simp only [firstFault_cons, first, further]

theorem forall_not_told_iff {δ : Type} {holds : ε → Prop} {change : ε → δ} :
    (∀ told, ¬ ∃ reason, holds reason ∧ told = change reason) ↔ ∀ reason, ¬ holds reason :=
  ⟨fun none reason found => none _ ⟨reason, found, rfl⟩,
    fun none _ ⟨reason, found, _⟩ => none reason found⟩

/-- Faults that are told in other words. -/
theorem firstFault_image {δ : Type} {change : ε → δ} {told : δ} :
    FirstFault (fun before entry told => ∃ reason, fault before entry reason ∧ told = change reason)
        entries told ↔
      ∃ reason, FirstFault fault entries reason ∧ told = change reason := by
  induction entries generalizing fault with
  | nil => simp [firstFault_nil]
  | cons entry rest ih =>
      simp only [firstFault_cons, ih, forall_not_told_iff, or_and_right, exists_or, and_assoc,
        exists_and_left]

theorem firstFault_filterMap {image : β → Option α} {fault : α → ε → Prop} {sources : List β} :
    FirstFault (fun _ => fault) (sources.filterMap image) reason ↔
      FirstFault (fun _ source reason => ∃ entry, image source = some entry ∧ fault entry reason)
        sources reason := by
  induction sources with
  | nil => simp [firstFault_nil]
  | cons source rest ih =>
      cases found : image source with
      | none => simp [List.filterMap_cons_none found, firstFault_cons, ih, found]
      | some entry => simp [List.filterMap_cons_some found, firstFault_cons, ih, found]

theorem mapM_eq_error_iff {act : α → Except ε β} {inputs : List α} :
    inputs.mapM act = .error reason ↔
      FirstFault (fun _ input reason => act input = .error reason) inputs reason := by
  induction inputs with
  | nil => simp [firstFault_nil, pure, Except.pure]
  | cons input rest ih =>
      rw [List.mapM_cons, bind_eq_error_iff, firstFault_cons, ← ih, ← exists_eq_ok_iff]
      simp only [pure, Except.pure, bind_ok_eq_error_iff, exists_and_right]

theorem mapM_eq_error_of_first {act : α → Except ε β} {before after : List α} {input : α}
    (sound : ∀ earlier ∈ before, ∃ result, act earlier = .ok result)
    (failed : act input = .error reason) :
    (before ++ input :: after).mapM act = .error reason := by
  rw [mapM_eq_error_iff]
  refine ⟨before, input, after, rfl, fun front earlier back split other refused => ?_, failed⟩
  obtain ⟨result, done⟩ := sound earlier (by simp [split])
  cases done.symm.trans refused

theorem find?_map_eq_some_iff {bad : α → Bool} {describe : α → ε} :
    (entries.find? bad).map describe = some reason ↔
      FirstFault (fun _ entry reason => bad entry = true ∧ reason = describe entry) entries
        reason := by
  induction entries with
  | nil => simp [firstFault_nil]
  | cons entry rest ih =>
      rw [firstFault_cons, ← ih, List.find?_cons]
      cases bad entry <;> simp [eq_comm]

end FirstFault

end Chip8
