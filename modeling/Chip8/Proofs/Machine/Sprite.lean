import Chip8.Machine.Host
import Chip8.Proofs.Machine.Framebuffer
import Chip8.Proofs.Machine.Memory

namespace Chip8

/-! What drawing a sprite does to each pixel: the pixel is inverted once for every set bit that
    lands on it. -/

namespace Framebuffer

/-- Where a bit of a sprite lands whose first row begins at column `x` of row `y`. What would lie
    beyond the right or lower edge lands nowhere, or else wraps around. -/
def Lands (clip : Bool) (x y row column : Nat) (px : Fin 64) (py : Fin 32) : Prop :=
  if clip then x + column = px ∧ y + row = py
  else (x + column) % 64 = px ∧ (y + row) % 32 = py

instance (clip : Bool) (x y row column : Nat) (px : Fin 64) (py : Fin 32) :
    Decidable (Lands clip x y row column px py) := by
  unfold Lands
  infer_instance

/-- The number of set bits that land on a pixel, each row of the sprite being a byte with its first
    bit as the most significant one. -/
def hits (clip : Bool) (sprite : Nat → UInt8) (size x y : Nat) (px : Fin 64) (py : Fin 32) : Nat :=
  ((Finset.range size ×ˢ Finset.range 8).filter fun place =>
    (sprite place.1).toBitVec.getMsbD place.2 = true ∧ Lands clip x y place.1 place.2 px py).card

/-- Every pixel is inverted so many times, and the flag tells whether one was turned off on the way:
    a set pixel by the first time, any other pixel by the second. -/
structure Inverts (count : Fin 64 → Fin 32 → Nat) (before : Framebuffer)
    (drawn : Bool × Framebuffer) : Prop where
  pixels : ∀ (px : Fin 64) (py : Fin 32),
    drawn.2.isSet px py = (before.isSet px py ^^ count px py % 2 == 1)
  flag : drawn.1 = true ↔
    ∃ px py, before.isSet px.val py = true ∧ 1 ≤ count px py ∨ 2 ≤ count px py
  clip : drawn.2.clip = before.clip

variable {display : Framebuffer} {clip : Bool} {x y : Nat} {px : Fin 64} {py : Fin 32}

/-- One row of a sprite has a bit for the pixel at most once. -/
def lineHits (clip : Bool) (bits : UInt8) (x y : Nat) (px : Fin 64) (py : Fin 32) : Nat :=
  ((Finset.range 8).filter fun column =>
    bits.toBitVec.getMsbD column = true ∧ Lands clip x y 0 column px py).card

theorem lands_succ {row column : Nat} :
    Lands clip x y (row + 1) column px py ↔ Lands clip x (y + 1) row column px py := by
  rw [Lands, Lands, Nat.add_right_comm y 1 row, Nat.add_assoc y row 1]

theorem hits_zero (sprite : Nat → UInt8) : hits clip sprite 0 x y px py = 0 := by
  simp [hits]

theorem hits_succ (sprite : Nat → UInt8) (size : Nat) :
    hits clip sprite (size + 1) x y px py =
      lineHits clip (sprite 0) x y px py +
        hits clip (fun row => sprite (row + 1)) size x (y + 1) px py := by
  simp only [hits, lineHits, Finset.card_filter, Finset.sum_product, Finset.sum_range_succ' _ size,
    lands_succ]
  exact Nat.add_comm _ _

theorem one_le_hits_iff {sprite : Nat → UInt8} {size : Nat} :
    1 ≤ hits clip sprite size x y px py ↔
      ∃ row column, row < size ∧ column < 8 ∧ (sprite row).toBitVec.getMsbD column = true ∧
        Lands clip x y row column px py := by
  rw [hits, Nat.succ_le_iff, Finset.card_pos]
  constructor
  · rintro ⟨⟨row, column⟩, found⟩
    simp only [Finset.mem_filter, Finset.mem_product, Finset.mem_range] at found
    exact ⟨row, column, found.1.1, found.1.2, found.2.1, found.2.2⟩
  · rintro ⟨row, column, inside, narrow, bit, landed⟩
    refine ⟨(row, column), ?_⟩
    simp only [Finset.mem_filter, Finset.mem_product, Finset.mem_range]
    exact ⟨⟨inside, narrow⟩, bit, landed⟩

/-- The column of the bit that would land in a column of the display. -/
theorem lands_iff (left : x < 64) {column : Nat} (narrow : column < 8) :
    Lands clip x y 0 column px py ↔
      column = (px + 64 - x) % 64 ∧ (clip = true → x ≤ px) ∧
        (if clip then y = py else y % 32 = py) := by
  have right := px.isLt
  cases clip with
  | true =>
      simp only [Lands, if_true, Nat.add_zero, forall_const]
      omega
  | false =>
      simp only [Lands, Bool.false_eq_true, if_false, Nat.add_zero, false_implies, true_and]
      omega

theorem lineHits_eq (left : x < 64) (bits : UInt8) (visible : ¬ (clip && 32 ≤ y) = true) :
    lineHits clip bits x y px py =
      if (spriteLine clip bits x).getMsbD px && Fin.ofNat 32 y == py then 1 else 0 := by
  let column := (px + 64 - x) % 64
  have row : (if clip then y = py else y % 32 = py) ↔ Fin.ofNat 32 y = py := by
    rw [← Fin.val_inj, Fin.val_ofNat]
    cases clip with
    | true =>
        simp only [Bool.true_and, decide_eq_true_eq] at visible
        rw [if_pos rfl, Nat.mod_eq_of_lt (Nat.not_le.mp visible)]
    | false => exact Iff.rfl
  have lit : (spriteLine clip bits x).getMsbD px = true ↔
      bits.toBitVec.getMsbD column = true ∧ (clip = true → x ≤ px) := by
    rw [getMsbD_spriteLine clip bits left px.isLt, Bool.and_eq_true]
    refine and_congr_right fun _ => ?_
    cases clip <;> simp
  have found (other : Nat) : other ∈ (Finset.range 8).filter (fun column =>
      bits.toBitVec.getMsbD column = true ∧ Lands clip x y 0 column px py) ↔
        other = column ∧ ((spriteLine clip bits x).getMsbD px && Fin.ofNat 32 y == py) = true := by
    rw [Finset.mem_filter, Finset.mem_range, Bool.and_eq_true, beq_iff_eq, lit, ← row]
    constructor
    · intro found
      obtain ⟨narrow, bit, landed⟩ := found
      obtain ⟨rfl, inside, here⟩ := (lands_iff left narrow).mp landed
      exact ⟨rfl, ⟨bit, inside⟩, here⟩
    · intro found
      obtain ⟨rfl, ⟨bit, inside⟩, here⟩ := found
      have narrow : column < 8 := by
        by_contra wide
        rw [BitVec.getMsbD_of_ge _ _ (Nat.not_lt.mp wide)] at bit
        cases bit
      exact ⟨narrow, bit, (lands_iff left narrow).mpr ⟨rfl, inside, here⟩⟩
  rw [lineHits]
  split
  · next drawn =>
      exact Finset.card_eq_one.mpr ⟨column, Finset.ext fun other => by
        rw [found, and_iff_left drawn, Finset.mem_singleton]⟩
  · next dark =>
      refine Finset.card_eq_zero.mpr (Finset.eq_empty_iff_forall_notMem.mpr fun other => ?_)
      rw [found]
      exact fun both => dark both.2

/-! The rows of a sprite one after the other. -/

theorem isSet_invert (row : Fin 32) (line : BitVec 64) :
    (display.invert row line).isSet px py =
      (display.isSet px py ^^ (line.getMsbD px && row == py)) := by
  by_cases here : row = py
  · subst here
    simp [isSet, invert, Vector.get_eq_getElem]
  · have elsewhere : row.val ≠ py.val := fun same => here (Fin.ext same)
    simp [isSet, invert, beq_false_of_ne here, elsewhere]

/-- A line turns a pixel off where it meets a set pixel of its row. -/
theorem covers_iff (row : Fin 32) (line : BitVec 64) :
    (display.rows.get row &&& line != 0) = true ↔
      ∃ (px : Fin 64) (py : Fin 32),
        display.isSet px py = true ∧ line.getMsbD px = true ∧ row = py := by
  rw [bne_iff_ne]
  constructor
  · intro met
    by_contra apart
    refine met (BitVec.eq_of_getMsbD_eq fun i inside => ?_)
    rw [BitVec.getMsbD_and, BitVec.ofNat_eq_ofNat, BitVec.getMsbD_zero, Bool.eq_false_iff]
    intro both
    obtain ⟨old, new⟩ := Bool.and_eq_true_iff.mp both
    exact apart ⟨⟨i, inside⟩, row, old, new, rfl⟩
  · intro met none
    obtain ⟨px, _, old, new, rfl⟩ := met
    have both : (display.rows.get row &&& line).getMsbD px = true := by
      rw [BitVec.getMsbD_and, new, Bool.and_true]
      exact old
    rw [none, BitVec.ofNat_eq_ofNat, BitVec.getMsbD_zero] at both
    cases both

theorem hits_clipped (sprite : Nat → UInt8) (size : Nat) (beyond : 32 ≤ y) :
    hits true sprite size x y px py = 0 := by
  rw [hits, Finset.card_eq_zero, Finset.filter_eq_empty_iff]
  intro place _ landed
  have below := landed.2.2
  omega

theorem inverts_zero : Inverts (fun _ _ => 0) display (false, display) := by
  refine ⟨fun px py => ?_, ?_, rfl⟩
  · simp
  · simp

theorem odd_add (count more : Nat) :
    ((count + more) % 2 == 1) = (count % 2 == 1 ^^ more % 2 == 1) := by
  rcases Nat.mod_two_eq_zero_or_one count with even | odd
  · simp [Nat.add_mod, even]
  · rcases Nat.mod_two_eq_zero_or_one more with even | odd'
    · simp [Nat.add_mod, odd, even]
    · simp [Nat.add_mod, odd, odd']

theorem odd_toNat (covered : Bool) : ((if covered then 1 else 0) % 2 == 1) = covered := by
  cases covered <;> rfl

/-- A line of a sprite and then the lines after it. -/
theorem Inverts.line {count : Fin 64 → Fin 32 → Nat} {row : Fin 32} {line : BitVec 64}
    {later : Bool × Framebuffer}
    (further : Inverts count (display.invert row line) later) :
    Inverts (fun px py => (if line.getMsbD px && row == py then 1 else 0) + count px py) display
      ((display.rows.get row &&& line) != 0 || later.1, later.2) := by
  refine ⟨fun px py => ?_, ?_, further.clip⟩
  · rw [further.pixels, isSet_invert, odd_add, odd_toNat, Bool.xor_assoc]
  · rw [Bool.or_eq_true, covers_iff, further.flag, ← exists_or]
    refine exists_congr fun px => ?_
    rw [← exists_or]
    refine exists_congr fun py => ?_
    rw [isSet_invert]
    cases covered : line.getMsbD px && row == py with
    | false =>
        have elsewhere : ¬ (line.getMsbD px = true ∧ row = py) := by simpa using covered
        simp [elsewhere]
    | true =>
        have here : line.getMsbD px = true ∧ row = py := by simpa using covered
        cases display.isSet px py with
        | false =>
            simp [here]
            omega
        | true => simp [here]

theorem inverts_stamp (left : x < 64) (sprite : List UInt8) :
    Inverts (hits display.clip (fun row => sprite.getD row 0) sprite.length x y) display
      (display.stamp x y sprite) := by
  induction sprite generalizing display y with
  | nil =>
      have none : hits display.clip (fun row => [].getD row 0) 0 x y = fun _ _ => 0 :=
        funext fun px => funext fun py => hits_zero _
      rw [List.length_nil, none]
      exact inverts_zero
  | cons bits rest ih =>
      rw [List.length_cons]
      by_cases past : (display.clip && 32 ≤ y) = true
      · obtain ⟨clipped, beyond⟩ := Bool.and_eq_true_iff.mp past
        have none : hits true (fun row => (bits :: rest).getD row 0) (rest.length + 1) x y =
            fun _ _ => 0 :=
          funext fun px => funext fun py => hits_clipped _ _ (of_decide_eq_true beyond)
        rw [stamp, if_pos past, clipped, none]
        exact inverts_zero
      · have count :
            hits display.clip (fun row => (bits :: rest).getD row 0) (rest.length + 1) x y =
              fun px py : _ => (if (spriteLine display.clip bits x).getMsbD px.val &&
                Fin.ofNat 32 y == py then 1 else 0) +
              hits display.clip (fun row => rest.getD row 0) rest.length x (y + 1) px py := by
          funext px py
          rw [hits_succ, ← lineHits_eq left bits past]
          rfl
        rw [stamp_cons bits rest past, count]
        exact ih.line

theorem hits_congr {sprite other : Nat → UInt8} {size : Nat}
    (same : ∀ row < size, sprite row = other row) :
    hits clip sprite size x y = hits clip other size x y := by
  funext px py
  refine congrArg Finset.card (Finset.filter_congr fun place inside => ?_)
  rw [same place.1 (Finset.mem_range.mp (Finset.mem_product.mp inside).1)]

/-- A block that is drawn is a sprite with one row for each of its bytes. -/
theorem draw_inverts_block (display : Framebuffer) (memory : Memory) {index size : Int} (x y : Int)
    (range : Memory.InRange index size) :
    ∃ drawn, display.draw memory index size x y = .ok drawn ∧
      Inverts (hits display.clip (fun row => memory.cell (.ofInt (index + row)))
        (Memory.blockLength index size) (x % 64).toNat (y % 32).toNat) display drawn := by
  have left : (x % 64).toNat < 64 := by omega
  let sprite := (List.range (Memory.blockLength index size)).map fun row : Nat =>
    memory.cell (.ofInt (index + row))
  have cells (row : Nat) (inside : row < Memory.blockLength index size) :
      sprite.getD row 0 = memory.cell (.ofInt (index + row)) := by
    simp [sprite, inside]
  have drawn : display.draw memory index size x y =
      .ok (display.stamp (x % 64).toNat (y % 32).toNat sprite) := by
    rw [draw, Memory.readBlock_eq_ok range]
    rfl
  refine ⟨_, drawn, ?_⟩
  rw [← hits_congr cells, show Memory.blockLength index size = sprite.length by simp [sprite]]
  exact inverts_stamp left sprite

theorem draw_eq_ok (display : Framebuffer) {memory : Memory} {index : Int} (x y : Int) {size : Nat}
    (range : Memory.InRange index size) :
    ∃ drawn, display.draw memory index size x y = .ok drawn ∧
      Inverts (hits display.clip (fun row => memory.cell (.ofInt (index + row))) size
        (x % 64).toNat (y % 32).toNat) display drawn := by
  have block := display.draw_inverts_block memory x y range
  rwa [Memory.blockLength_natCast range] at block

end Framebuffer

namespace Machine

/-- Drawing a sprite of any size, anywhere, inverts each pixel as often as set bits of the sprite
    land on it, and answers whether one was turned off. A sprite that is not wholly in memory is
    refused, and the machine stays as it was. -/
theorem draw_inverts {ρ : Type} [ByteSource ρ] (machine : Machine ρ) (index x y : Int)
    (size : Nat) :
    let sprite (row : Nat) := machine.memory.cell (.ofInt (index + row))
    let count := Framebuffer.hits machine.display.clip sprite size (x % 64).toNat (y % 32).toNat
    if 0 ≤ index ∧ index + size ≤ 4096 then
      ∃ collision display,
        machine.serve (.draw index size x y) = (.ok (.truth collision), { machine with display }) ∧
          Framebuffer.Inverts count machine.display (collision, display)
    else
      machine.serve (.draw index size x y) =
        (.error (.fault (.memoryViolation index)), machine) := by
  intro sprite count
  split
  · next range =>
      obtain ⟨drawn, done, inverts⟩ := machine.display.draw_eq_ok x y range
      exact ⟨drawn.1, drawn.2, by rw [serve, done]; rfl, inverts⟩
  · next outside =>
      have refused : machine.display.draw machine.memory index size x y =
          .error (.memoryViolation index) := by
        have beyond : ¬ Memory.InRange index size := outside
        rw [Framebuffer.draw, Memory.readBlock, Memory.access, if_neg beyond]
        rfl
      rw [serve, refused]
      rfl

end Machine

end Chip8
