import Chip8.Proofs.Machine.Sprite
import Chip8.Proofs.Machine.Step

namespace Chip8

/-! Blocks of any size, negative ones among them: how many bytes a block gives that is read, and how
    many rows of the display it changes when it is drawn. -/

namespace Framebuffer

variable {display : Framebuffer} {count : Fin 64 → Fin 32 → Nat} {drawn : Bool × Framebuffer}

def changedRows (before after : Framebuffer) : Finset (Fin 32) :=
  Finset.univ.filter fun y => after.rows.get y ≠ before.rows.get y

/-- A row changes only where one of its pixels is inverted. -/
theorem Inverts.exists_of_changed (inverts : Inverts count display drawn) {y : Fin 32}
    (changed : y ∈ display.changedRows drawn.2) : ∃ px, 1 ≤ count px y := by
  by_contra still
  push Not at still
  refine (Finset.mem_filter.mp changed).2 (BitVec.eq_of_getMsbD_eq fun x inside => ?_)
  have none : count ⟨x, inside⟩ y = 0 := Nat.lt_one_iff.mp (still ⟨x, inside⟩)
  have same := inverts.pixels ⟨x, inside⟩ y
  rw [none] at same
  exact same.trans (Bool.xor_false _)

/-- Each row of a sprite falls on one row of the display, or on none. -/
theorem Inverts.card_changedRows_le {clip : Bool} {sprite : Nat → UInt8} {size x y : Nat}
    (inverts : Inverts (hits clip sprite size x y) display drawn) :
    (display.changedRows drawn.2).card ≤ size := by
  have landing : display.changedRows drawn.2 ⊆
      (Finset.range size).image fun row => Fin.ofNat 32 (y + row) := by
    intro py changed
    obtain ⟨px, hit⟩ := inverts.exists_of_changed changed
    obtain ⟨row, column, inside, _, _, landed⟩ := one_le_hits_iff.mp hit
    refine Finset.mem_image.mpr ⟨row, Finset.mem_range.mpr inside, Fin.ext ?_⟩
    rw [Fin.val_ofNat]
    cases clip with
    | true =>
        rw [Lands, if_pos rfl] at landed
        omega
    | false =>
        rw [Lands, if_neg Bool.false_ne_true] at landed
        exact landed.2
  calc (display.changedRows drawn.2).card
      ≤ ((Finset.range size).image fun row => Fin.ofNat 32 (y + row)).card :=
        Finset.card_le_card landing
    _ ≤ (Finset.range size).card := Finset.card_image_le
    _ = size := Finset.card_range size

end Framebuffer

namespace Memory

variable {address size : Int}

theorem blockLength_eq_iff (start : 0 ≤ address) :
    blockLength address size = size.toNat ↔ ¬ (address + size < 0 ∧ -4096 < size) := by
  rw [blockLength]
  split <;> omega

theorem length_readBlock_iff (memory : Memory) (address size : Int) :
    (∀ bytes, memory.readBlock address size = .ok bytes → bytes.length = size.toNat) ↔
      ¬ (0 ≤ address ∧ address + size < 0 ∧ -4096 < size) := by
  by_cases range : InRange address size
  · have start := range.1
    simp only [readBlock_eq_ok range, Except.ok.injEq, forall_eq', List.length_map,
      List.length_range, blockLength_eq_iff start, start, true_and]
  · rw [InRange] at range
    refine iff_of_true (fun bytes read => ?_) (by omega)
    exact absurd (access_eq_ok_iff.mp read).1 range

theorem draw_eq_error_of_not_inRange (memory : Memory) (outside : ¬ InRange address size)
    (display : Framebuffer) (x y : Int) :
    display.draw memory address size x y = .error (.memoryViolation address) := by
  rw [Framebuffer.draw, readBlock, access, if_neg outside]
  rfl

/-- A block that is not refused gives the cells from its address on, and drawing it changes no more
    rows than it has bytes. These are as many as were asked for, none where the size is negative,
    except that an end below zero counts back from the end of memory: such a block has all bytes of
    memory but so many as the size is below zero, if any are left. -/
theorem blocks_bounded (memory : Memory) (address size : Int) :
    let beyond := 0 ≤ address ∧ address + size < 0 ∧ -4096 < size
    (memory.readBlock address size =
      if InRange address size then
        .ok ((List.range (blockLength address size)).map fun k : Nat =>
          memory.cell (.ofInt (address + k)))
      else .error (.memoryViolation address)) ∧
    ((∀ bytes, memory.readBlock address size = .ok bytes → bytes.length = size.toNat) ↔
      ¬ beyond) ∧
    ∀ (display : Framebuffer) (x y : Int),
      if InRange address size then
        ∃ drawn, display.draw memory address size x y = .ok drawn ∧
          (display.changedRows drawn.2).card ≤ blockLength address size ∧
            (¬ beyond → (display.changedRows drawn.2).card ≤ size.toNat)
      else display.draw memory address size x y = .error (.memoryViolation address) := by
  intro beyond
  refine ⟨?_, length_readBlock_iff memory address size, fun display x y => ?_⟩
  · split
    · next range => exact readBlock_eq_ok range
    · next outside => exact if_neg outside
  · split
    · next range =>
        obtain ⟨drawn, done, inverts⟩ := display.draw_inverts_block memory x y range
        have bounded := inverts.card_changedRows_le
        refine ⟨drawn, done, bounded, fun kept => ?_⟩
        have asked := (blockLength_eq_iff range.1).mpr fun below => kept ⟨range.1, below⟩
        exact asked ▸ bounded
    · next outside => exact draw_eq_error_of_not_inRange memory outside display x y

/-- One byte less than none, asked for from the start of memory, gives all bytes but the last, and
    drawing them changes all rows. -/
theorem block_below_zero :
    (∃ bytes, initial.readBlock 0 (-1) = .ok bytes ∧ bytes.length = 4095) ∧
      let display : Framebuffer := { clip := true }
      ∃ drawn, display.draw initial 0 (-1) 0 0 = .ok drawn ∧
        (display.changedRows drawn.2).card = 32 := by
  have length : blockLength 0 (-1) = 4095 := by decide
  have read : initial.readBlock 0 (-1) =
      .ok ((List.range 4095).map fun k : Nat => initial.cell (.ofInt (0 + k))) := by
    rw [readBlock_eq_ok (by decide), length]
  refine ⟨⟨_, read, by rw [List.length_map, List.length_range]⟩, ?_⟩
  intro display
  have drawn : display.draw initial 0 (-1) 0 0 = .ok (display.stamp (0 % 64 : Int).toNat
      (0 % 32 : Int).toNat
      ((List.range 4095).map fun k : Nat => initial.cell (.ofInt (0 + k)))) := by
    rw [Framebuffer.draw, read]
    rfl
  refine ⟨_, drawn, ?_⟩
  decide +kernel

end Memory

end Chip8
