import Chip8.Proofs.Assembly.Joining

namespace Chip8.Assembly

/-! A layout that is written to in place, one write after the other. What was written before a
    failure stays written, so it is up to the order of writes and checks that a failure leaves the
    layout alone. -/

/-- Writes on a layout that a failure may cut short. -/
abbrev Recording (α : Type) := ExceptT Failure (StateM Layout) α

/-- What may be asked of a layout at any time. -/
inductive Act
  | issue (item : Item)
  | resolve (operand : Operand)
  | emit
  deriving DecidableEq, Repr

inductive Answer
  | done
  | value (value : Int)
  | program (bytes : List UInt8)
  deriving DecidableEq, Repr

/-- The answer to an act and the layout after it. -/
def Layout.serve (layout : Layout) : Act → Except Failure Answer × Layout
  | .issue item =>
      match layout.add item with
      | .ok next => (.ok .done, next)
      | .error reason => (.error reason, layout)
  | .resolve operand => ((layout.resolve operand).map .value, layout)
  | .emit => (layout.emit.map .program, layout)

namespace Recording

variable {α β : Type} {layout : Layout} {items : List Item}

def on (recording : Recording α) (layout : Layout) : Except Failure α × Layout :=
  (ExceptT.run recording).run layout

def defineLabel (name : String) : Recording Unit := do
  if ((← get).labels.lookup name).isSome then throw (.report (.duplicateLabel name))
  else modify fun layout => { layout with labels := layout.labels ++ [(name, layout.offset)] }

def append (command : Command) : Recording Unit :=
  modify fun layout => { layout with commands := layout.commands.push command }

def advance (size : Nat) : Recording Unit :=
  modify fun layout => { layout with offset := layout.offset + size }

def checkByte (value : Int) : Recording Unit :=
  if 0 ≤ value ∧ value ≤ 0xFF then pure () else throw (AsmError.byteRange value).raised

def issue : Item → Recording Unit
  | .label name => defineLabel name
  | .instruction opcode operands => do
      append (.instruction opcode operands)
      advance 2
  | .bytes values => do
      forM values checkByte
      append (.bytes (values.map UInt8.ofInt))
      advance values.length
  | .words values => do
      append (.words values)
      advance (2 * values.length)

def perform : Act → Recording Answer
  | .issue item => do
      issue item
      pure .done
  | .resolve operand => do
      let value ← ofExcept ((← get).resolve operand)
      pure (.value value)
  | .emit => do
      let bytes ← ofExcept (← get).emit
      pure (.program bytes)

theorem on_bind (recording : Recording α) (next : α → Recording β) :
    (recording >>= next).on layout =
      match recording.on layout with
      | (.ok value, after) => (next value).on after
      | (.error reason, after) => (.error reason, after) := by
  simp only [on, ExceptT.run_bind, StateT.run_bind]
  cases recording.run.run layout with
  | mk outcome after => cases outcome <;> rfl

theorem on_get : (get : Recording Layout).on layout = (.ok layout, layout) := rfl

theorem on_ofExcept (outcome : Except Failure α) :
    (ofExcept outcome : Recording α).on layout = (outcome, layout) := by
  cases outcome <;> rfl

/-! The writes come to the same as laying an item out at once. -/

theorem on_checkBytes (values : List Int) :
    (forM values checkByte : Recording Unit).on layout =
      ((values.mapM Layout.byte).map fun _ => (), layout) := by
  induction values with
  | nil => rfl
  | cons value rest ih =>
      rw [List.forM_cons, on_bind, List.mapM_cons, checkByte, Layout.byte]
      by_cases range : 0 ≤ value ∧ value ≤ 0xFF
      · rw [if_pos range, if_pos range]
        refine ih.trans ?_
        cases rest.mapM Layout.byte <;> rfl
      · rw [if_neg range, if_neg range]
        rfl

theorem on_issue (item : Item) :
    (issue item).on layout =
      match layout.add item with
      | .ok next => (.ok (), next)
      | .error reason => (.error reason, layout) := by
  cases item with
  | label name =>
      rw [issue, defineLabel, on_bind, on_get, Layout.add]
      dsimp only
      split <;> rfl
  | instruction opcode operands => rfl
  | bytes values =>
      rw [issue, on_bind, on_checkBytes, Layout.add]
      cases converted : values.mapM Layout.byte with
      | error reason => rfl
      | ok bytes =>
          -- The values themselves are converted and counted once they have all been checked.
          obtain ⟨rfl, _⟩ := Layout.mapM_byte_eq_ok converted
          change (_, ({ layout with offset := _, commands := _ } : Layout)) = (_, layout.place _)
          rw [Layout.place, Command.size, List.length_map]
  | words values => rfl

theorem on_perform (act : Act) : (perform act).on layout = layout.serve act := by
  cases act with
  | issue item =>
      rw [perform, on_bind, on_issue, Layout.serve]
      cases layout.add item <;> rfl
  | resolve operand =>
      rw [perform, on_bind, on_get]
      dsimp only
      rw [on_bind, on_ofExcept, Layout.serve]
      cases layout.resolve operand <;> rfl
  | emit =>
      rw [perform, on_bind, on_get]
      dsimp only
      rw [on_bind, on_ofExcept, Layout.serve]
      cases layout.emit <;> rfl

end Recording

namespace Layout

variable {layout later : Layout} {items more : List Item} {acts : List Act} {name : String}
  {address : Nat} {program whole : List UInt8} {reason : Failure}

/-- The layout after some acts, each of which may have failed. -/
def follow (layout : Layout) : List Act → Layout
  | [] => layout
  | act :: rest => follow ((Recording.perform act).on layout).2 rest

theorem follow_append (layout : Layout) (acts more : List Act) :
    layout.follow (acts ++ more) = (layout.follow acts).follow more := by
  induction acts generalizing layout with
  | nil => rfl
  | cons act rest ih => exact ih _

/-- An act leaves the layout alone or lays one more item out. -/
theorem serve_cases (layout : Layout) (act : Act) :
    (layout.serve act).2 = layout ∨
      ∃ item, act = .issue item ∧ layout.add item = .ok (layout.serve act).2 := by
  cases act with
  | issue item =>
      rw [serve]
      cases added : layout.add item with
      | error reason => exact Or.inl rfl
      | ok next => exact Or.inr ⟨item, rfl, added⟩
  | resolve operand => exact Or.inl rfl
  | emit => exact Or.inl rfl

theorem unchanged_of_serve_error {act : Act} (failed : layout.serve act = (.error reason, later)) :
    later = layout := by
  cases act with
  | issue item =>
      rw [serve] at failed
      cases added : layout.add item with
      | error cause =>
          rw [added] at failed
          exact (Prod.mk.inj failed).2.symm
      | ok next =>
          rw [added] at failed
          cases (Prod.mk.inj failed).1
  | resolve operand => exact (Prod.mk.inj failed).2.symm
  | emit => exact (Prod.mk.inj failed).2.symm

theorem LaysOut.follow (laid : layout.LaysOut items) (acts : List Act) :
    ∃ more, (layout.follow acts).LaysOut (items ++ more) := by
  induction acts generalizing layout items with
  | nil =>
      refine ⟨[], ?_⟩
      rw [List.append_nil]
      exact laid
  | cons act rest ih =>
      rw [Layout.follow, Recording.on_perform]
      rcases serve_cases layout act with same | ⟨item, _, added⟩
      · rw [same]
        exact ih laid
      · obtain ⟨more, laidAll⟩ := ih (laid.add added)
        exact ⟨item :: more, by simpa using laidAll⟩

theorem LaysOut.commands_append (laid : layout.LaysOut items)
    (laidAll : later.LaysOut (items ++ more)) :
    later.commands.toList = layout.commands.toList ++ more.filterMap Item.command? := by
  rw [laidAll.commands, laid.commands, List.filterMap_append]

theorem LaysOut.offset_eq (laid : layout.LaysOut items) :
    layout.offset = 0x200 + (layout.commands.toList.map Command.size).sum := by
  rw [laid.offset, laid.commands, sum_command_sizes, addressAfter]

/-! Labels. -/

theorem lookup_add {item : Item} (name : String) (added : layout.add item = .ok later) :
    later.labels.lookup name = layout.labels.lookup name ∨
      item = .label name ∧ layout.labels.lookup name = none ∧
        later.labels.lookup name = some layout.offset := by
  cases item with
  | label defined =>
      rw [add] at added
      split at added
      · cases added
      · next fresh =>
          cases added
          have absent : layout.labels.lookup defined = none :=
            Option.not_isSome_iff_eq_none.mp fresh
          rw [List.lookup_append]
          by_cases same : name = defined
          · subst name
            exact Or.inr ⟨rfl, absent, by simp [absent]⟩
          · have elsewhere : [(defined, layout.offset)].lookup name = none := by
              simp [List.lookup_cons, beq_false_of_ne same]
            exact Or.inl (by rw [elsewhere, Option.or_none])
  | instruction opcode operands =>
      cases added
      exact Or.inl rfl
  | bytes values =>
      obtain ⟨bytes, _, placed⟩ := bind_eq_ok_iff.mp added
      cases placed
      exact Or.inl rfl
  | words operands =>
      cases added
      exact Or.inl rfl

theorem lookup_serve (layout : Layout) (name : String) (act : Act) :
    (layout.serve act).2.labels.lookup name = layout.labels.lookup name ∨
      act = .issue (.label name) ∧ layout.labels.lookup name = none ∧
        (layout.serve act).2.labels.lookup name = some layout.offset := by
  rcases serve_cases layout act with same | ⟨item, rfl, added⟩
  · exact Or.inl (by rw [same])
  · rcases lookup_add name added with same | ⟨rfl, defined⟩
    · exact Or.inl same
    · exact Or.inr ⟨rfl, defined⟩

/-- A label keeps its address. -/
theorem lookup_follow (bound : layout.labels.lookup name = some address) (acts : List Act) :
    (layout.follow acts).labels.lookup name = some address := by
  induction acts generalizing layout with
  | nil => exact bound
  | cons act rest ih =>
      rw [follow, Recording.on_perform]
      rcases lookup_serve layout name act with same | ⟨_, absent, _⟩
      · exact ih (same.trans bound)
      · rw [bound] at absent
        cases absent

/-- Every label was defined once, at the offset of that time. -/
theorem defined_of_lookup_follow (fresh : layout.labels.lookup name = none)
    (bound : (layout.follow acts).labels.lookup name = some address) :
    ∃ before after, acts = before ++ .issue (.label name) :: after ∧
      (layout.follow before).labels.lookup name = none ∧
        address = (layout.follow before).offset := by
  induction acts generalizing layout with
  | nil =>
      rw [follow, fresh] at bound
      cases bound
  | cons act rest ih =>
      rw [follow, Recording.on_perform] at bound
      rcases lookup_serve layout name act with same | ⟨rfl, _, here⟩
      · obtain ⟨before, after, rfl, absent, place⟩ := ih (same.trans fresh) bound
        refine ⟨act :: before, after, rfl, ?_⟩
        rw [follow, Recording.on_perform]
        exact ⟨absent, place⟩
      · -- The address that the first act gives is the one that is found in the end.
        rw [lookup_follow here rest] at bound
        cases bound
        exact ⟨[], rest, rfl, fresh, rfl⟩

/-! Programs. -/

/-- What is written for the commands at the beginning of a layout. -/
theorem emit_front {front : List Command} (begun : front <+: layout.commands.toList)
    (emitted : layout.emit = .ok program) :
    ∃ chunks back, front.mapM layout.commandBytes = .ok chunks ∧
      program = chunks.flatten ++ back ∧
        chunks.flatten.length = (front.map Command.size).sum := by
  obtain ⟨rest, split⟩ := begun
  obtain ⟨all, written, rfl⟩ := emit_eq_ok_iff.mp emitted
  rw [← split, List.mapM_append] at written
  obtain ⟨chunks, first, further⟩ := bind_eq_ok_iff.mp written
  obtain ⟨others, _, joined⟩ := bind_eq_ok_iff.mp further
  cases joined
  exact ⟨chunks, others.flatten, first, List.flatten_append, length_chunks first⟩

theorem LaysOut.mapM_commands (laid : layout.LaysOut items)
    (laidAll : later.LaysOut (items ++ more)) {chunks : List (List UInt8)}
    (written : layout.commands.toList.mapM layout.commandBytes = .ok chunks) :
    layout.commands.toList.mapM later.commandBytes = .ok chunks := by
  rw [laid.commands] at written ⊢
  exact chunks_agree (fun _ _ _ _ _ resolved => laid.resolve_append laidAll resolved) written

theorem LaysOut.emit_prefix (laid : layout.LaysOut items)
    (laidAll : later.LaysOut (items ++ more)) (emitted : layout.emit = .ok program)
    (emittedAll : later.emit = .ok whole) : program <+: whole := by
  obtain ⟨chunks, written, rfl⟩ := emit_eq_ok_iff.mp emitted
  have begun : layout.commands.toList <+: later.commands.toList :=
    ⟨_, (laid.commands_append laidAll).symm⟩
  obtain ⟨same, back, again, rfl, _⟩ := emit_front begun emittedAll
  cases again.symm.trans (laid.mapM_commands laidAll written)
  exact List.prefix_append _ _

theorem LaysOut.emit_fault (laid : layout.LaysOut items)
    (laidAll : later.LaysOut (items ++ more)) (emitted : layout.emit = .ok program)
    (failed : later.emit = .error reason) :
    ∃ command ∈ more.filterMap Item.command?, later.commandBytes command = .error reason := by
  obtain ⟨chunks, written, _⟩ := emit_eq_ok_iff.mp emitted
  rw [emit, bind_ok_eq_error_iff, laid.commands_append laidAll, List.mapM_append,
    laid.mapM_commands laidAll written] at failed
  have added := bind_ok_eq_error_iff.mp failed
  obtain ⟨before, command, after, split, _, refused⟩ := mapM_eq_error_iff.mp added
  exact ⟨command, by simp [split], refused⟩

/-- Whatever was asked of a new layout, and whether or not it was refused: a failure changes
    nothing, the offset is where a program ends that is written now, a label keeps the address up to
    which the commands recorded before it fill the program, and a program that could once be written
    begins every later one, which only commands recorded since can prevent. -/
theorem follow_bookkeeping (acts : List Act) :
    let reached := ({} : Layout).follow acts
    (∀ act, (Recording.perform act).on reached = reached.serve act ∧
        ∀ reason later, (Recording.perform act).on reached = (.error reason, later) →
          later = reached) ∧
      (∀ program, reached.emit = .ok program → 0x200 + program.length = reached.offset) ∧
        (∀ name address, reached.labels.lookup name = some address →
          (∀ more, (reached.follow more).labels.lookup name = some address) ∧
            ∃ before after, acts = before ++ .issue (.label name) :: after ∧
              let earlier := ({} : Layout).follow before
              earlier.labels.lookup name = none ∧
                (∀ more, earlier.commands.toList <+: (reached.follow more).commands.toList) ∧
                  ∀ (other : Layout) program, earlier.commands.toList <+: other.commands.toList →
                    other.emit = .ok program →
                      ∃ chunks back, earlier.commands.toList.mapM other.commandBytes = .ok chunks ∧
                        program = chunks.flatten ++ back ∧
                          address = 0x200 + chunks.flatten.length) ∧
          ∀ more program, reached.emit = .ok program →
            let later := reached.follow more
            (∀ whole, later.emit = .ok whole → program <+: whole) ∧
              ∀ reason, later.emit = .error reason →
                ∃ added, later.commands.toList = reached.commands.toList ++ added ∧
                  ∃ command ∈ added, later.commandBytes command = .error reason := by
  obtain ⟨items, laid⟩ : ∃ items, (({} : Layout).follow acts).LaysOut items :=
    laysOut_nil.follow acts
  refine ⟨fun act => ⟨Recording.on_perform act, fun reason later failed => ?_⟩,
    fun program emitted => ?_, fun name address bound => ?_, fun more program emitted => ?_⟩
  · rw [Recording.on_perform] at failed
    exact unchanged_of_serve_error failed
  · exact (laid.emit_length emitted).trans laid.offset.symm
  · refine ⟨fun more => lookup_follow bound more, ?_⟩
    obtain ⟨before, after, rfl, fresh, rfl⟩ := defined_of_lookup_follow rfl bound
    obtain ⟨earlierItems, laidEarlier⟩ : ∃ items, (({} : Layout).follow before).LaysOut items :=
      laysOut_nil.follow before
    refine ⟨before, after, rfl, fresh, fun more => ?_, fun other program begun emitted => ?_⟩
    · rw [follow_append, ← follow_append _ _ more]
      obtain ⟨further, laidLater⟩ := laidEarlier.follow (.issue (.label name) :: after ++ more)
      exact ⟨_, (laidEarlier.commands_append laidLater).symm⟩
    · obtain ⟨chunks, back, written, split, size⟩ := emit_front begun emitted
      exact ⟨chunks, back, written, split, by rw [size, laidEarlier.offset_eq]⟩
  · obtain ⟨further, laidLater⟩ := laid.follow more
    refine ⟨fun whole emittedAll => laid.emit_prefix laidLater emitted emittedAll, ?_⟩
    intro reason failed
    exact ⟨_, laid.commands_append laidLater, laid.emit_fault laidLater emitted failed⟩

/-- A label is used before it is defined, is not defined again, and keeps its address behind a list
    of bytes that was refused and one that was not. -/
theorem follow_bookkeeping_forward_label :
    let acts : List Act := [.issue (.instruction (.address .jump) [.label "end"]), .emit,
      .issue (.bytes [1, 300]), .issue (.bytes [7]), .issue (.label "end")]
    let reached := ({} : Layout).follow acts
    reached.emit = .ok [0x12, 0x03, 7] ∧ reached.offset = 0x203 ∧
      (reached.follow [.issue (.words [.label "end"]), .issue (.label "end")]).labels.lookup "end" =
        some 0x203 := by
  intro acts reached
  have emitted : reached.emit = .ok [0x12, 0x03, 7] := by decide +kernel
  have bound : reached.labels.lookup "end" = some 0x203 := by decide +kernel
  obtain ⟨_, size, labels, _⟩ := follow_bookkeeping acts
  exact ⟨emitted, (size _ emitted).symm, (labels _ _ bound).1 _⟩

end Layout

end Chip8.Assembly
