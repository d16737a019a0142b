import Chip8.Proofs.Machine.Framebuffer
import Chip8.Proofs.Plain.Parts

namespace Chip8.Plain

/-! Drawing pixel by pixel, and drawing with lines of bits. -/

open Act Framebuffer

variable {ρ : Type} {machine : Machine ρ}

theorem ofPixels_fill (lit : Bool) :
    ofPixels (if lit then BitVec.allOnes 64 else 0) = List.replicate 64 (if lit then 1 else 0) := by
  cases lit <;> rfl

theorem fill_plain (value : Int) :
    fill value machine.plain =
      (.ok (), { machine with display := machine.display.fill (value % 2 == 1) }.plain) := by
  have colour : value % 2 = if value % 2 == 1 then 1 else 0 := by
    rcases Int.emod_two_eq_zero_or_one value with even | odd
    · rw [even]
      rfl
    · rw [odd]
      rfl
  have byte : bytes [value % 2] = .ok [value % 2] := by
    have range : 0 ≤ value % 2 ∧ value % 2 < 256 := by omega
    rw [bytes, if_pos range]
    rfl
  have size : machine.plain.rows.length = 32 := by
    simp only [Machine.plain, plainRows, List.length_map, Vector.length_toList]
  have rows : machine.plain.rows.map (fun _ => (List.replicate 64 [value % 2]).flatten) =
      (machine.display.fill (value % 2 == 1)).plainRows := by
    rw [List.map_const', size, List.flatten_replicate_singleton, plainRows, Framebuffer.fill,
      Vector.toList_replicate, List.map_replicate, ofPixels_fill, ← colour]
  rw [fill, byte, lift_bind, write_apply, rows]
  rfl

/-! One pixel. -/

theorem rows_plain (machine : Machine ρ) (y : Fin 32) :
    y.val < machine.plain.rows.length ∧ machine.plain.rows.length ≤ 0x1000 := by
  have bound := y.isLt
  simp [Machine.plain, plainRows, bound]

theorem row_plain (y : Fin 32) :
    item machine.plain.rows (y.val : Int) = .ok (ofPixels (machine.display.rows.get y)) := by
  obtain ⟨inside, short⟩ := rows_plain machine y
  rw [item_natCast inside short]
  simp [Machine.plain, plainRows, Vector.get_eq_getElem]

theorem pixel_plain {x : Nat} (inside : x < 64) (y : Fin 32) :
    pixel x y.val machine.plain =
      (.ok (if machine.display.isSet x y then 1 else 0), machine.plain) := by
  have length := (ofPixels_range (machine.display.rows.get y)).1
  rw [pixel, read_bind, row_plain, lift_bind, item_natCast (by omega) (by omega)]
  simp [lift, ofPixels, isSet]
  rfl

theorem ofPixels_xor (line : BitVec 64) {x : Nat} (inside : x < 64) :
    (ofPixels line).set x (if line.getMsbD x then 0 else 1) = ofPixels (line ^^^ dot x) := by
  have flipped (i : Nat) : (line ^^^ dot x).getMsbD i = (line.getMsbD i ^^ decide (i = x)) := by
    rw [BitVec.getMsbD_xor, getMsbD_dot inside]
  apply List.ext_getElem (by simp [ofPixels])
  intro i _ _
  rw [List.getElem_set]
  simp only [ofPixels, List.getElem_map, List.getElem_range, flipped]
  by_cases here : x = i
  · rw [if_pos here, ← here, decide_eq_true rfl, Bool.xor_true]
    cases line.getMsbD x <;> rfl
  · rw [if_neg here, decide_eq_false (Ne.symm here), Bool.xor_false]

theorem setPixel_plain {x : Nat} (inside : x < 64) (y : Fin 32) (value : Int)
    (other : value = if machine.display.isSet x y then 0 else 1) :
    setPixel x y.val value machine.plain =
      (.ok (), { machine with display := machine.display.invert y (dot x) }.plain) := by
  have length := (ofPixels_range (machine.display.rows.get y)).1
  obtain ⟨stored, short⟩ := rows_plain machine y
  have byte : bytes [value] = .ok [value] := by
    rw [other]
    cases machine.display.isSet x y <;> rfl
  have changed : assignByte (ofPixels (machine.display.rows.get y)) x value =
      .ok (ofPixels (machine.display.rows.get y ^^^ dot x)) := by
    rw [assignByte, byte, assign_natCast value (by omega) (by omega), ← ofPixels_xor _ inside,
      other]
    rfl
  have rows : machine.plain.rows.set y.val (ofPixels (machine.display.rows.get y ^^^ dot x)) =
      (machine.display.invert y (dot x)).plainRows := by
    simp [Machine.plain, plainRows, invert, List.map_set]
  rw [setPixel, read_bind, row_plain, lift_bind, changed, lift_bind, read_bind,
    assign_natCast _ stored short, lift_bind, write_apply, rows]
  rfl

/-- A pixel inverted, and whether it was turned off passed on. -/
theorem toggle_plain {x : Nat} (inside : x < 64) (y : Fin 32) (overwrote : Bool)
    (next : Bool → Act ρ Bool) :
    (do
      if (← pixel x y.val) ≠ 0 then
        setPixel x y.val 0
        next true
      else
        setPixel x y.val 1
        next overwrote : Act ρ Bool) machine.plain =
      next (overwrote || machine.display.isSet x y)
        { machine with display := machine.display.invert y (dot x) }.plain := by
  rw [bind_of_ok _ (pixel_plain inside y)]
  cases lit : machine.display.isSet x y with
  | true =>
      have drawn := setPixel_plain inside y 0 (if_pos lit).symm
      rw [if_pos rfl, if_pos Int.one_ne_zero, bind_of_ok _ drawn, Bool.or_true]
  | false =>
      have dark : ¬ machine.display.isSet x y = true := Bool.not_eq_true _ ▸ lit
      have drawn := setPixel_plain inside y 1 (if_neg dark).symm
      rw [if_neg Bool.false_ne_true, if_neg (fun same => same rfl), bind_of_ok _ drawn,
        Bool.or_false]

/-! Lines of a sprite. -/

theorem bit_plain (bits : UInt8) {column : Nat} (narrow : column < 8) :
    (bits.toNat : Int) / 2 ^ (7 - column) % 2 = 0 ↔ bits.toBitVec.getMsbD column = false := by
  have natural : ((bits.toNat : Int) / 2 ^ (7 - column) % 2 : Int) =
      (bits.toNat / 2 ^ (7 - column) % 2 : Nat) := by
    simp
  have lit : bits.toBitVec.getMsbD column = decide (bits.toNat / 2 ^ (7 - column) % 2 = 1) := by
    rw [BitVec.getMsbD_eq_getLsbD, decide_eq_true narrow, Bool.true_and, BitVec.getLsbD,
      Nat.testBit_eq_decide_div_mod_eq]
    rfl
  rw [natural, lit, decide_eq_false_iff_not]
  omega

theorem drawColumns_plain (clip : Bool) {x : Nat} (left : x < 64) (y : Fin 32) (bits : UInt8)
    (overwrote : Bool) {first count : Nat} (narrow : first + count ≤ 8) :
    drawColumns clip x y.val bits.toNat overwrote (List.range' first count) machine.plain =
      (.ok (overwrote ||
          machine.display.rows.get y &&& columns clip x bits (List.range' first count) != 0),
        { machine with
          display := machine.display.invert y
            (columns clip x bits (List.range' first count)) }.plain) := by
  -- The display of the rest already holds the pixels passed, so it varies with the machine.
  induction count generalizing first overwrote machine with
  | zero => simp [drawColumns, columns, invert_zero]
  | succ count ih =>
      have bit := bit_plain bits (by omega : first < 8)
      have place : ((x : Int) + first) % 64 = ((x + first) % 64 : Nat) := by omega
      have inside : (x + first) % 64 < 64 := Nat.mod_lt _ (by decide)
      rw [List.range'_succ, drawColumns, columns]
      have beyond : (clip = true ∧ (64 : Int) ≤ x + first) ↔ clip && 64 ≤ x + first := by
        rw [Bool.and_eq_true, decide_eq_true_eq]
        exact and_congr_right fun _ => by omega
      by_cases past : clip && 64 ≤ x + first
      · rw [if_pos (beyond.mpr past), if_pos past]
        simp [invert_zero]
      · rw [if_neg (mt beyond.mp past), if_neg past]
        cases lit : bits.toBitVec.getMsbD first with
        | false =>
            rw [if_pos (bit.mpr lit), if_neg (by decide)]
            exact ih overwrote (by omega)
        | true =>
            have apart := dot_and_columns clip bits left (by omega : first + 1 + count ≤ 8)
            rw [if_neg (by simp [bit, lit]), if_pos rfl, covers_or inside apart, place]
            refine (toggle_plain inside y overwrote fun later =>
              drawColumns clip x y.val bits.toNat later (List.range' (first + 1) count)).trans ?_
            rw [ih _ (by omega), invert_or _ _ apart, rows_invert, Bool.or_assoc]
            rfl

/-- One line of a sprite on row `y`, drawn column by column. -/
theorem drawLine_plain (clip : Bool) {x : Nat} (left : x < 64) (y : Fin 32) (bits : UInt8)
    (overwrote : Bool) :
    drawColumns clip x y.val bits.toNat overwrote (List.range 8) machine.plain =
      (.ok (overwrote || machine.display.rows.get y &&& spriteLine clip bits x != 0),
        { machine with display := machine.display.invert y (spriteLine clip bits x) }.plain) := by
  rw [← columns_range clip bits left, List.range_eq_range']
  exact drawColumns_plain clip left y bits overwrote (Nat.le_refl 8)

theorem drawLines_plain {x : Nat} (left : x < 64) (y : Nat) (overwrote : Bool)
    (sprite : List UInt8) :
    drawLines machine.display.clip x y overwrote (ofBytes sprite) machine.plain =
      (.ok (overwrote || (machine.display.stamp x y sprite).1),
        { machine with display := (machine.display.stamp x y sprite).2 }.plain) := by
  induction sprite generalizing y overwrote machine with
  | nil =>
      rw [stamp, Bool.or_false]
      rfl
  | cons bits rest ih =>
      have row : (y : Int) % 32 = ((Fin.ofNat 32 y).val : Nat) := by
        rw [Fin.val_ofNat]
        omega
      have next : (y : Int) + 1 = (y + 1 : Nat) := by omega
      have below : (machine.display.clip = true ∧ (32 : Int) ≤ y) ↔
          machine.display.clip && 32 ≤ y := by
        rw [Bool.and_eq_true, decide_eq_true_eq]
        exact and_congr_right fun _ => by omega
      rw [ofBytes, List.map_cons, ← ofBytes, drawLines]
      by_cases past : machine.display.clip && 32 ≤ y
      · rw [if_pos (below.mpr past), stamp, if_pos past, Bool.or_false]
        rfl
      · rw [if_neg (mt below.mp past), stamp_cons bits rest past, row, next,
          bind_of_ok _ (drawLine_plain machine.display.clip left (Fin.ofNat 32 y) bits overwrote)]
        let row : Fin 32 := Fin.ofNat 32 y
        let line := spriteLine machine.display.clip bits x
        have further := @ih { machine with display := machine.display.invert row line } (y + 1)
          (overwrote || machine.display.rows.get row &&& line != 0)
        rw [Bool.or_assoc] at further
        exact further

theorem draw_plain (index size x y : Int) :
    draw index size x y machine.plain =
      mirror machine (machine.display.draw machine.memory index size x y) (fun drawn => drawn.1)
        fun drawn => { machine with display := drawn.2 } := by
  have column : x % 64 = ((x % 64).toNat : Nat) := by omega
  have row : y % 32 = ((y % 32).toNat : Nat) := by omega
  rw [draw, Framebuffer.draw]
  cases read : machine.memory.readBlock index size with
  | error fault =>
      rw [bind_of_error _ (by rw [readBlock_plain, read]; rfl)]
      rfl
  | ok sprite =>
      rw [bind_of_ok _ (by rw [readBlock_plain, read]; rfl), read_bind, column, row]
      exact drawLines_plain (by omega) _ false sprite

/-! Pictures. -/

theorem ofPixels_row (line : BitVec 64) :
    ofPixels line = (row line).map fun lit : Bool => if lit then 1 else 0 := by
  rw [ofPixels, row, List.map_map]
  rfl

theorem plainRows_pixelRows (display : Framebuffer) :
    display.plainRows =
      display.pixelRows.map (List.map fun lit : Bool => if lit then 1 else 0) := by
  rw [plainRows, pixelRows, List.map_map]
  exact List.map_congr_left fun line _ => ofPixels_row line

theorem toText_plain (on off : String) :
    "\n".intercalate (machine.plain.rows.map fun row =>
        String.join (row.map fun cell => if cell ≠ 0 then on else off)) =
      machine.display.toText on off := by
  change "\n".intercalate (machine.display.plainRows.map _) = _
  rw [plainRows_pixelRows, List.map_map, toText]
  refine congrArg _ (List.map_congr_left fun pixels _ => ?_)
  rw [Function.comp_apply, List.map_map]
  refine congrArg _ (List.map_congr_left fun lit _ => ?_)
  cases lit <;> rfl

theorem bytes_component (values : List Int) :
    bytes values = ((values.mapM component).map ofBytes).mapError .colour := by
  induction values with
  | nil => rfl
  | cons value rest ih =>
      rw [bytes, List.mapM_cons, component]
      by_cases range : 0 ≤ value ∧ value < 256
      · have kept := toNat_ofInt_byte (by omega : 0 ≤ value ∧ value ≤ 0xFF)
        rw [if_pos range, if_pos range, ih]
        cases rest.mapM component with
        | error refusal => rfl
        | ok further =>
            change Except.ok (value :: ofBytes further) =
              Except.ok (ofBytes (.ofInt value :: further))
            rw [ofBytes, ofBytes, List.map_cons, kept]
      · rw [if_neg range, if_neg range]
        rfl

theorem colours_pixels (on off : List Int) (pixels : List Bool) :
    colours on off (pixels.map fun lit : Bool => if lit then 1 else 0) =
      ((pixels.mapM fun lit : Bool => (if lit then on else off).mapM component).map
        fun parts => ofBytes parts.flatten).mapError .colour := by
  induction pixels with
  | nil => rfl
  | cons lit rest ih =>
      have chosen : (if (if lit then (1 : Int) else 0) ≠ 0 then on else off) =
          if lit then on else off := by
        cases lit <;> rfl
      rw [List.map_cons, colours, List.mapM_cons, ih, chosen, bytes_component]
      cases (if lit then on else off).mapM component with
      | error refusal => rfl
      | ok colour =>
          cases rest.mapM fun lit : Bool => (if lit then on else off).mapM component with
          | error refusal => rfl
          | ok others =>
              change Except.ok (ofBytes colour ++ ofBytes others.flatten) =
                Except.ok (ofBytes (colour :: others).flatten)
              rw [List.flatten_cons, ofBytes, ofBytes, ofBytes, List.map_append]

theorem toRgba_plain (on off : List Int) :
    colours on off machine.plain.rows.flatten =
      ((machine.display.toRgba on off).map ofBytes).mapError .colour := by
  change colours on off machine.display.plainRows.flatten = _
  rw [plainRows_pixelRows, ← List.map_flatten, colours_pixels, toRgba]
  cases machine.display.pixelRows.flatten.mapM fun lit : Bool =>
    (if lit then on else off).mapM component <;> rfl

end Chip8.Plain
