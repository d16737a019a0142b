import Chip8.Machine.Picture
import Chip8.Proofs.Machine.Framebuffer
import Chip8.Proofs.Machine.Memory
import Chip8.Proofs.Outcome

namespace Chip8

/-! The exports of a display: where the glyph and the colour of each pixel stand in them, which
    colours are refused, and that no two pictures share one. -/

/-! Pieces of one size end to end. -/

section Pieces

variable {α : Type} {pieces : List (List α)} {size : Nat}

theorem length_flatten_of_alike (alike : ∀ piece ∈ pieces, piece.length = size) :
    pieces.flatten.length = size * pieces.length := by
  rw [List.length_flatten, List.map_congr_left alike, List.map_const', List.sum_replicate,
    smul_eq_mul, Nat.mul_comm]

theorem drop_flatten_of_alike (alike : ∀ piece ∈ pieces, piece.length = size) (count : Nat) :
    pieces.flatten.drop (size * count) = (pieces.drop count).flatten := by
  induction count generalizing pieces with
  | zero => rfl
  | succ count ih =>
      cases pieces with
      | nil => simp
      | cons piece rest =>
          obtain ⟨here, further⟩ := List.forall_mem_cons.mp alike
          rw [Nat.mul_succ, Nat.add_comm, ← List.drop_drop, List.flatten_cons,
            List.drop_left' here, List.drop_succ_cons, ih further]

theorem piece_of_flatten (alike : ∀ piece ∈ pieces, piece.length = size) {i : Nat}
    (inside : i < pieces.length) : (pieces.flatten.drop (size * i)).take size = pieces[i] := by
  rw [drop_flatten_of_alike alike, List.drop_eq_getElem_cons inside, List.flatten_cons]
  exact List.take_left' (alike _ (List.getElem_mem inside))

end Pieces

namespace Framebuffer

variable {display other : Framebuffer}

theorem pixel_eq_isSet (display : Framebuffer) (x : Fin 64) (y : Fin 32) :
    display.pixel x.val y.val = display.isSet x y := by
  have column : ((x.val : Int) % 64).toNat = x.val := by omega
  have row : Fin.ofNat 32 ((y.val : Int) % 32).toNat = y := by
    apply Fin.ext
    rw [Fin.val_ofNat]
    omega
  rw [pixel, column, row]

theorem eq_of_chosen {α : Type} {on off : α} (different : on ≠ off) {lit other : Bool}
    (same : (if lit then on else off) = if other then on else off) : lit = other := by
  cases lit with
  | false =>
      cases other with
      | false => rfl
      | true => exact absurd same.symm different
  | true =>
      cases other with
      | false => exact absurd same different
      | true => rfl

/-! The pixels as lists. -/

theorem length_pixelRows (display : Framebuffer) : display.pixelRows.length = 32 := by
  rw [pixelRows, List.length_map, Vector.length_toList]

theorem pixelRows_alike (display : Framebuffer) : ∀ pixels ∈ display.pixelRows,
    pixels.length = 64 := by
  intro pixels member
  obtain ⟨bits, _, rfl⟩ := List.mem_map.mp member
  rw [row, List.length_map, List.length_range]

theorem length_pixels (display : Framebuffer) : display.pixelRows.flatten.length = 2048 := by
  rw [length_flatten_of_alike display.pixelRows_alike, length_pixelRows]

theorem getElem_pixelRows (x : Fin 64) (y : Fin 32)
    (below : y.val < display.pixelRows.length) (inside : x.val < display.pixelRows[y.val].length) :
    display.pixelRows[y.val][x.val] = display.isSet x y := by
  simp [pixelRows, row, isSet]

theorem getElem_pixels (x : Fin 64) (y : Fin 32)
    (inside : 64 * y.val + x.val < display.pixelRows.flatten.length) :
    display.pixelRows.flatten[64 * y.val + x.val] = display.isSet x y := by
  have below : y.val < display.pixelRows.length := by
    rw [length_pixelRows]
    exact y.isLt
  have narrow : x.val < display.pixelRows[y.val].length := by
    rw [display.pixelRows_alike _ (List.getElem_mem below)]
    exact x.isLt
  have piece := piece_of_flatten display.pixelRows_alike below
  rw [← getElem_pixelRows x y below narrow]
  simp only [← piece, List.getElem_take, List.getElem_drop]

theorem mem_pixels_iff {lit : Bool} :
    lit ∈ display.pixelRows.flatten ↔ ∃ (x : Fin 64) (y : Fin 32), display.isSet x y = lit := by
  constructor
  · intro member
    obtain ⟨i, bound, rfl⟩ := List.getElem_of_mem member
    rw [length_pixels] at bound
    refine ⟨⟨i % 64, by omega⟩, ⟨i / 64, by omega⟩, ?_⟩
    rw [← getElem_pixels ⟨i % 64, _⟩ ⟨i / 64, _⟩ (by simp only [length_pixels]; omega)]
    simp only [Nat.div_add_mod]
  · rintro ⟨x, y, rfl⟩
    rw [← getElem_pixels x y (by simp only [length_pixels]; omega)]
    exact List.getElem_mem _

/-! Text. -/

section Text

variable {on off : String} {size : Nat}

def line (on off : String) (pixels : List Bool) : List Char :=
  (pixels.map fun lit : Bool => (if lit then on else off).toList).flatten

def lines (display : Framebuffer) (on off : String) : Vector (List Char) 32 :=
  display.rows.map fun bits => line on off (row bits)

theorem get_lines (display : Framebuffer) (on off : String) (y : Fin 32) :
    (display.lines on off).get y = line on off (row (display.rows.get y)) :=
  Vector.getElem_map ..

theorem toList_toText (display : Framebuffer) (on off : String) :
    (display.toText on off).toList = ['\n'].intercalate (display.lines on off).toList := by
  rw [toText, String.toList_intercalate, List.map_map, lines, Vector.toList_map, pixelRows,
    List.map_map]
  refine congrArg _ (List.map_congr_left fun bits _ => ?_)
  rw [Function.comp_apply, Function.comp_apply, String.toList_join, List.flatMap_map,
    List.flatMap_def, line]

theorem newline_notMem_line (dry : '\n' ∉ on.toList) (dryOff : '\n' ∉ off.toList)
    (pixels : List Bool) : '\n' ∉ line on off pixels := by
  intro member
  obtain ⟨glyph, listed, member⟩ := List.mem_flatten.mp member
  obtain ⟨lit, _, rfl⟩ := List.mem_map.mp listed
  cases lit with
  | false => exact dryOff member
  | true => exact dry member

/-- A reader of the text gets its lines back. -/
theorem splitOn_toText (display : Framebuffer) (dry : '\n' ∉ on.toList)
    (dryOff : '\n' ∉ off.toList) :
    (display.toText on off).toList.splitOn '\n' = (display.lines on off).toList := by
  rw [toList_toText]
  refine List.splitOn_intercalate '\n' (fun characters member => ?_) ?_
  · rw [lines, Vector.toList_map] at member
    obtain ⟨bits, _, rfl⟩ := List.mem_map.mp member
    exact newline_notMem_line dry dryOff (row bits)
  · rw [ne_eq, ← List.length_eq_zero_iff, Vector.length_toList]
    decide

theorem glyphs_alike (wide : on.length = size) (wideOff : off.length = size)
    (pixels : List Bool) :
    ∀ glyph ∈ pixels.map fun lit : Bool => (if lit then on else off).toList,
      glyph.length = size := by
  intro glyph member
  obtain ⟨lit, _, rfl⟩ := List.mem_map.mp member
  rw [String.length_toList]
  cases lit with
  | false => exact wideOff
  | true => exact wide

theorem length_line (wide : on.length = size) (wideOff : off.length = size)
    (pixels : List Bool) : (line on off pixels).length = size * pixels.length := by
  rw [line, length_flatten_of_alike (glyphs_alike wide wideOff pixels), List.length_map]

theorem glyph_of_line (wide : on.length = size) (wideOff : off.length = size)
    (bits : BitVec 64) (x : Fin 64) :
    ((line on off (row bits)).drop (size * x.val)).take size =
      (if bits.getMsbD x then on else off).toList := by
  rw [line, piece_of_flatten (glyphs_alike wide wideOff _) (by simp [row])]
  simp [row]

theorem rows_eq_of_toText (wide : on.length = size) (wideOff : off.length = size)
    (dry : '\n' ∉ on.toList) (dryOff : '\n' ∉ off.toList) (different : on ≠ off)
    (same : other.toText on off = display.toText on off) : other.rows = display.rows := by
  have lines : other.lines on off = display.lines on off := by
    rw [← Vector.toList_inj, ← splitOn_toText other dry dryOff, same,
      splitOn_toText display dry dryOff]
  refine rows_eq_of_isSet fun x y => ?_
  have here : line on off (row (other.rows.get y)) = line on off (row (display.rows.get y)) := by
    rw [← get_lines, lines, get_lines]
  have glyphs := glyph_of_line wide wideOff (other.rows.get y) x
  rw [here, glyph_of_line wide wideOff, String.toList_inj] at glyphs
  exact (eq_of_chosen different glyphs).symm

end Text

/-! Colours. -/

section Colours

variable {on off : List Int} {bytes : List UInt8} {size : Nat}

def IsByte (value : Int) : Prop :=
  0 ≤ value ∧ value ≤ 255

theorem component_eq_ok_iff {value : Int} {byte : UInt8} :
    component value = .ok byte ↔ IsByte value ∧ byte = UInt8.ofInt value := by
  have same : (0 ≤ value ∧ value < 256) ↔ IsByte value := by
    rw [IsByte]
    omega
  rw [component, ← same]
  by_cases range : 0 ≤ value ∧ value < 256
  · rw [if_pos range, Except.ok.injEq, eq_comm, and_iff_right range]
  · rw [if_neg range]
    simp [range]

theorem colour_eq_ok_iff {colour : List Int} :
    colour.mapM component = .ok bytes ↔
      (∀ value ∈ colour, IsByte value) ∧ bytes = colour.map UInt8.ofInt :=
  mapM_eq_ok_iff_map fun _ _ => component_eq_ok_iff

/-- The colours of all pixels, one after the other, if those that some pixel has are made of
    bytes. -/
theorem toRgba_eq_ok_iff :
    display.toRgba on off = .ok bytes ↔
      (∀ lit ∈ display.pixelRows.flatten, ∀ value ∈ if lit then on else off, IsByte value) ∧
        bytes = (display.pixelRows.flatten.map fun lit : Bool =>
          (if lit then on else off).map UInt8.ofInt).flatten := by
  have each (lit : Bool) (bytes : List UInt8) :
      (if lit then on else off).mapM component = .ok bytes ↔
        (∀ value ∈ if lit then on else off, IsByte value) ∧
          bytes = (if lit then on else off).map UInt8.ofInt :=
    colour_eq_ok_iff
  rw [toRgba, bind_eq_ok_iff]
  simp only [mapM_eq_ok_iff_map each]
  constructor
  · rintro ⟨_, ⟨made, rfl⟩, same⟩
    cases same
    exact ⟨made, rfl⟩
  · rintro ⟨made, rfl⟩
    exact ⟨_, ⟨made, rfl⟩, rfl⟩

theorem toRgba_eq_error_iff :
    (∃ reason, display.toRgba on off = .error reason) ↔
      ∃ (x : Fin 64) (y : Fin 32), ∃ value ∈ if display.isSet x y then on else off,
        ¬ IsByte value := by
  have refused : (∃ reason, display.toRgba on off = .error reason) ↔
      ¬ ∃ bytes, display.toRgba on off = .ok bytes := by
    rw [exists_eq_ok_iff]
    push Not
    rfl
  simp only [refused, toRgba_eq_ok_iff, exists_and_left, exists_eq, and_true, mem_pixels_iff]
  push Not
  constructor
  · rintro ⟨_, ⟨x, y, rfl⟩, outside⟩
    exact ⟨x, y, outside⟩
  · rintro ⟨x, y, outside⟩
    exact ⟨_, ⟨x, y, rfl⟩, outside⟩

theorem map_toNat_ofInt {colour : List Int} (made : ∀ value ∈ colour, IsByte value) :
    (colour.map UInt8.ofInt).map (fun byte => (byte.toNat : Int)) = colour := by
  rw [List.map_map]
  refine (List.map_congr_left fun value member => ?_).trans (List.map_id colour)
  obtain ⟨lower, upper⟩ := made value member
  have same := toNat_ofInt value
  simp only [Function.comp_apply, id_eq]
  omega

theorem toRgba_pieces (exported : display.toRgba on off = .ok bytes) (wide : on.length = size)
    (wideOff : off.length = size) :
    bytes.length = 2048 * size ∧
      ∀ (x : Fin 64) (y : Fin 32),
        ((bytes.drop (size * (64 * y.val + x.val))).take size).map
            (fun byte => (byte.toNat : Int)) =
          if display.isSet x y then on else off := by
  obtain ⟨made, rfl⟩ := toRgba_eq_ok_iff.mp exported
  have alike : ∀ colour ∈ display.pixelRows.flatten.map (fun lit : Bool =>
      (if lit then on else off).map UInt8.ofInt), colour.length = size := by
    intro colour member
    obtain ⟨lit, _, rfl⟩ := List.mem_map.mp member
    rw [List.length_map]
    cases lit with
    | false => exact wideOff
    | true => exact wide
  constructor
  · rw [length_flatten_of_alike alike, List.length_map, length_pixels, Nat.mul_comm]
  · intro x y
    have inside : 64 * y.val + x.val < display.pixelRows.flatten.length := by
      rw [length_pixels]
      omega
    have here := getElem_pixels x y inside
    rw [piece_of_flatten alike (by rwa [List.length_map]), List.getElem_map, here]
    exact map_toNat_ofInt (made _ (here ▸ List.getElem_mem inside))

theorem rows_eq_of_toRgba (exported : display.toRgba on off = .ok bytes) (wide : on.length = size)
    (wideOff : off.length = size) (different : on ≠ off)
    (same : other.toRgba on off = .ok bytes) : other.rows = display.rows := by
  refine rows_eq_of_isSet fun x y => eq_of_chosen different ?_
  rw [← (toRgba_pieces exported wide wideOff).2 x y, (toRgba_pieces same wide wideOff).2 x y]

end Colours

/-- Both exports are made of one piece for each pixel, which tells whether it is set, so that no two
    pictures have the same one. A text is 32 lines of 64 pieces; colours stand without anything
    between rows, and are refused exactly where a pixel has a colour that is not made of bytes. -/
theorem exports_show_pixels (display : Framebuffer) :
    (∀ (on off : String) (size : Nat), on.length = size → off.length = size →
        '\n' ∉ on.toList → '\n' ∉ off.toList →
      (∃ lines : Vector (List Char) 32,
        (display.toText on off).toList = ['\n'].intercalate lines.toList ∧
          ∀ y : Fin 32, '\n' ∉ lines.get y ∧ (lines.get y).length = size * 64 ∧
            ∀ x : Fin 64, ((lines.get y).drop (size * x.val)).take size =
              (if display.pixel x.val y.val then on else off).toList) ∧
      (on ≠ off → ∀ other : Framebuffer, other.toText on off = display.toText on off →
        other.rows = display.rows)) ∧
    ∀ on off : List Int,
      ((∃ reason, display.toRgba on off = .error reason) ↔
        (∃ (x : Fin 64) (y : Fin 32), display.pixel x.val y.val = true ∧
            ∃ value ∈ on, ¬ (0 ≤ value ∧ value ≤ 255)) ∨
          ∃ (x : Fin 64) (y : Fin 32), display.pixel x.val y.val = false ∧
            ∃ value ∈ off, ¬ (0 ≤ value ∧ value ≤ 255)) ∧
      ∀ bytes, display.toRgba on off = .ok bytes →
        ∀ size, on.length = size → off.length = size →
          bytes.length = 2048 * size ∧
          (∀ (x : Fin 64) (y : Fin 32),
            ((bytes.drop (size * (64 * y.val + x.val))).take size).map
                (fun byte => (byte.toNat : Int)) =
              if display.pixel x.val y.val then on else off) ∧
          (on ≠ off → ∀ other : Framebuffer, other.toRgba on off = .ok bytes →
            other.rows = display.rows) := by
  simp only [pixel_eq_isSet]
  refine ⟨fun on off size wide wideOff dry dryOff => ⟨?_, fun different other same => ?_⟩,
    fun on off => ⟨?_, fun bytes exported size wide wideOff => ?_⟩⟩
  · refine ⟨display.lines on off, toList_toText display on off, fun y => ?_⟩
    rw [get_lines]
    refine ⟨newline_notMem_line dry dryOff _, ?_, glyph_of_line wide wideOff _⟩
    rw [length_line wide wideOff, row, List.length_map, List.length_range]
  · exact rows_eq_of_toText wide wideOff dry dryOff different same
  · rw [toRgba_eq_error_iff, ← exists_or]
    refine exists_congr fun x => ?_
    rw [← exists_or]
    refine exists_congr fun y => ?_
    cases display.isSet x y <;> simp [IsByte]
  · obtain ⟨length, pieces⟩ := toRgba_pieces exported wide wideOff
    exact ⟨length, pieces, fun different other => rows_eq_of_toRgba exported wide wideOff different⟩

/-- A display whose last pixel alone is set, beside a dark one. A colour that is no byte is refused
    for the unset pixels. -/
theorem exports_show_pixels_last :
    let display : Framebuffer := { clip := true, rows := (Vector.replicate 32 0).set 31 1 }
    let dark : Framebuffer := { clip := true }
    "[]".length = 2 ∧ "..".length = 2 ∧ '\n' ∉ "[]".toList ∧ '\n' ∉ "..".toList ∧
      dark.toText "[]" ".." ≠ display.toText "[]" ".." ∧
        (∃ reason, display.toRgba [255] [-1] = .error reason) ∧
          ∃ bytes, display.toRgba [255] [0] = .ok bytes ∧ dark.toRgba [255] [0] ≠ .ok bytes ∧
            ((bytes.drop (1 * (64 * 31 + 63))).take 1).map (fun byte => (byte.toNat : Int)) =
              [255] := by
  intro display dark
  have different : dark.rows ≠ display.rows := by decide +kernel
  have set : display.pixel 63 31 = true := by decide +kernel
  have unset : display.pixel 0 0 = false := by decide +kernel
  have made : ∀ lit ∈ display.pixelRows.flatten, ∀ value ∈ if lit then [255] else [0],
      IsByte value := by
    intro lit _
    cases lit <;> simp [IsByte]
  have exported := toRgba_eq_ok_iff.mpr ⟨made, rfl⟩
  obtain ⟨texts, colours⟩ := exports_show_pixels display
  obtain ⟨_, text⟩ := texts "[]" ".." 2 rfl rfl (by decide) (by decide)
  obtain ⟨length, pieces, told⟩ := (colours [255] [0]).2 _ exported 1 rfl rfl
  refine ⟨rfl, rfl, by decide, by decide, fun same => different (text (by decide) dark same),
    (colours [255] [-1]).1.mpr (Or.inr ⟨0, 0, unset, -1, by decide⟩), _, exported,
    fun same => different (told (by decide) dark same), ?_⟩
  exact (pieces 63 31).trans (if_pos set)

end Framebuffer

end Chip8
