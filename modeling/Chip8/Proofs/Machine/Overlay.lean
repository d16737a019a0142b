import Chip8.Proofs.Machine.Session
import Chip8.Proofs.Machine.Sprite

namespace Chip8

namespace Framebuffer

variable {display other : Framebuffer} {clip : Bool} {x y : Nat} {px : Fin 64} {py : Fin 32}

/-- Displays that clip alike are told apart by their pixels. -/
theorem eq_of_isSet (clip : other.clip = display.clip)
    (same : ∀ (px : Fin 64) (py : Fin 32), other.isSet px py = display.isSet px py) :
    other = display := by
  have rows := rows_eq_of_isSet same
  cases other
  cases display
  cases clip
  cases rows
  rfl

/-- What a sprite turns on at first it turns off the second time, so one of the two times turns a
    pixel off if the sprite inverts one at all. -/
theorem Inverts.twice {count : Fin 64 → Fin 32 → Nat} {first second : Bool × Framebuffer}
    (once : Inverts count display first) (again : Inverts count first.2 second) :
    (first.1 = true ∨ second.1 = true) ↔ ∃ px py, 1 ≤ count px py := by
  rw [once.flag, again.flag]
  constructor
  · rintro (⟨px, py, covered⟩ | ⟨px, py, covered⟩)
    · exact ⟨px, py, by omega⟩
    · exact ⟨px, py, by omega⟩
  · rintro ⟨px, py, landed⟩
    by_cases double : 2 ≤ count px py
    · exact Or.inl ⟨px, py, Or.inr double⟩
    · have single : count px py = 1 := by omega
      cases lit : display.isSet px py with
      | true => exact Or.inl ⟨px, py, Or.inl ⟨lit, landed⟩⟩
      | false =>
          have on : first.2.isSet px py = true := by
            rw [once.pixels, lit, single]
            rfl
          exact Or.inr ⟨px, py, Or.inl ⟨on, landed⟩⟩

end Framebuffer

theorem even_count_append_self (requests : List Request) (request : Request) :
    Even ((requests ++ requests).count request) :=
  ⟨requests.count request, List.count_append⟩

/-- A request to draw a sprite that is wholly in memory. -/
def Request.Overlays : Request → Prop
  | .draw index size _ _ => 0 ≤ size ∧ Memory.InRange index size
  | _ => False

namespace Machine

/-! Sprites drawn over one another. Each of them inverts certain pixels, so neither their order nor
    any two that are equal are seen in the end. -/

variable {ρ : Type} {machine : Machine ρ} {request : Request} {requests others : List Request}

/-- How often a request to draw inverts a pixel. -/
def inversions (machine : Machine ρ) (px : Fin 64) (py : Fin 32) : Request → Nat
  | .draw index size x y =>
      Framebuffer.hits machine.display.clip (fun row => machine.memory.cell (.ofInt (index + row)))
        size.toNat (x % 64).toNat (y % 32).toNat px py
  | _ => 0

/-- The picture itself has no part in it. -/
theorem inversions_of_clip {display : Framebuffer} (clip : display.clip = machine.display.clip)
    (px : Fin 64) (py : Fin 32) :
    Machine.inversions { machine with display } px py = machine.inversions px py := by
  funext request
  cases request with
  | draw index size x y =>
      simp only [inversions]
      rw [clip]
  | _ => rfl

theorem one_le_inversions_iff {index x y : Int} {size : Nat} {px : Fin 64} {py : Fin 32} :
    1 ≤ machine.inversions px py (.draw index size x y) ↔
      ∃ row column, row < size ∧ column < 8 ∧
        (machine.memory.cell (.ofInt (index + row))).toBitVec.getMsbD column = true ∧
          Framebuffer.Lands machine.display.clip (x % 64).toNat (y % 32).toNat row column px
            py := by
  rw [inversions, Int.toNat_natCast, Framebuffer.one_le_hits_iff]

section Session

variable [ByteSource ρ]

theorem serve_overlay (machine : Machine ρ) (overlays : request.Overlays) :
    ∃ collision display,
      machine.serve request = (.ok (.truth collision), { machine with display }) ∧
        Framebuffer.Inverts (fun px py => machine.inversions px py request) machine.display
          (collision, display) := by
  cases request with
  | draw index size x y =>
      obtain ⟨nonnegative, range⟩ := overlays
      obtain ⟨size, rfl⟩ := Int.eq_ofNat_of_zero_le nonnegative
      obtain ⟨drawn, done, inverts⟩ := machine.display.draw_eq_ok x y range
      refine ⟨drawn.1, drawn.2, ?_, inverts⟩
      rw [serve, done]
      rfl
  | _ => exact overlays.elim

/-- After some overlays every pixel has been inverted as often as all of them together say. -/
theorem session_overlays (machine : Machine ρ) (overlays : ∀ request ∈ requests, request.Overlays) :
    (∀ reply ∈ (machine.session requests).1, ∃ collision, reply = .ok (.truth collision)) ∧
      ∃ display, (machine.session requests).2 = { machine with display } ∧
        display.clip = machine.display.clip ∧
          ∀ px py, display.isSet px.val py =
            (machine.display.isSet px.val py ^^
              (requests.map (machine.inversions px py)).sum % 2 == 1) := by
  induction requests generalizing machine with
  | nil => exact ⟨nofun, machine.display, rfl, rfl, fun px py => by simp⟩
  | cons request rest ih =>
      obtain ⟨here, further⟩ := List.forall_mem_cons.mp overlays
      obtain ⟨collision, drawn, served, inverts⟩ := machine.serve_overlay here
      obtain ⟨replies, display, final, clip, pixels⟩ :=
        ih { machine with display := drawn } further
      rw [session_cons, served]
      refine ⟨?_, display, final, clip.trans inverts.clip, fun px py => ?_⟩
      · intro reply member
        rcases List.mem_cons.mp member with rfl | member
        · exact ⟨collision, rfl⟩
        · exact replies reply member
      · rw [pixels, inversions_of_clip inverts.clip, inverts.pixels, List.map_cons, List.sum_cons,
          Framebuffer.odd_add, Bool.xor_assoc]

theorem session_overlays_perm (overlays : ∀ request ∈ requests, request.Overlays)
    (alike : requests.Perm others) :
    (machine.session others).2 = (machine.session requests).2 := by
  obtain ⟨_, display, final, clip, pixels⟩ := machine.session_overlays overlays
  obtain ⟨_, reordered, finalOther, clipOther, pixelsOther⟩ := machine.session_overlays
    fun request member => overlays request (alike.mem_iff.mpr member)
  have same : reordered = display := by
    refine Framebuffer.eq_of_isSet (clipOther.trans clip.symm) fun px py => ?_
    rw [pixels, pixelsOther, (alike.map (machine.inversions px py)).sum_eq]
  rw [final, finalOther, same]

theorem session_overlays_even (overlays : ∀ request ∈ requests, request.Overlays)
    (even : ∀ request, Even (requests.count request)) : (machine.session requests).2 = machine := by
  obtain ⟨_, display, final, clip, pixels⟩ := machine.session_overlays overlays
  have same : display = machine.display := by
    refine Framebuffer.eq_of_isSet clip fun px py => ?_
    have total : Even (requests.map (machine.inversions px py)).sum := by
      rw [Finset.sum_list_map_count]
      exact Finset.even_sum _ fun request _ => (even request).mul_right _
    rw [pixels, Nat.even_iff.mp total]
    exact Bool.xor_false _
  rw [final, same]

/-- However some sprites are ordered, they leave the same picture, and those drawn an even number of
    times leave none. Of two equal draws in a row one turns a pixel off just when a set bit of the
    sprite lands on the display. -/
theorem draws_cancel (machine : Machine ρ) :
    (∀ requests : List Request, (∀ request ∈ requests, request.Overlays) →
      (∀ reply ∈ (machine.session requests).1, ∃ collision, reply = .ok (.truth collision)) ∧
        (∀ others : List Request, requests.Perm others →
          (machine.session others).2 = (machine.session requests).2) ∧
          ((∀ request, Even (requests.count request)) → (machine.session requests).2 = machine)) ∧
      ∀ (index x y : Int) (size : Nat), 0 ≤ index ∧ index + size ≤ 4096 →
        let sprite (row : Nat) := machine.memory.cell (.ofInt (index + row))
        ∃ first second,
          machine.session [.draw index size x y, .draw index size x y] =
              ([.ok (.truth first), .ok (.truth second)], machine) ∧
            ((first = true ∨ second = true) ↔
              ∃ px py row column, row < size ∧ column < 8 ∧
                (sprite row).toBitVec.getMsbD column = true ∧
                  Framebuffer.Lands machine.display.clip (x % 64).toNat (y % 32).toNat row column
                    px py) := by
  refine ⟨fun requests overlays => ⟨?_, fun others alike => ?_, fun even => ?_⟩, ?_⟩
  · exact (machine.session_overlays overlays).1
  · exact session_overlays_perm overlays alike
  · exact session_overlays_even overlays even
  · intro index x y size range sprite
    let request : Request := .draw index size x y
    have overlays : request.Overlays := ⟨Int.natCast_nonneg size, range⟩
    obtain ⟨first, drawn, served, once⟩ := machine.serve_overlay overlays
    obtain ⟨second, restored, servedAgain, again⟩ :=
      serve_overlay { machine with display := drawn } overlays
    have replies : (machine.session [request, request]).1 =
        [.ok (.truth first), .ok (.truth second)] := by
      rw [session_cons, session_cons, served, servedAgain]
      rfl
    have whole : (machine.session [request, request]).2 = machine :=
      session_overlays_even (by simp [overlays]) fun other => even_count_append_self [request] other
    refine ⟨first, second, Prod.ext replies whole, ?_⟩
    simp only [inversions_of_clip once.clip] at again
    rw [once.twice again]
    exact exists_congr fun px => exists_congr fun py => one_le_inversions_iff

/-- Two digits reach over the lower right corner and the left edge, so both wrap around. -/
theorem draws_cancel_wrapped :
    ∃ machine : Machine ByteCycle,
      boot [] { clipSprites := false } { values := [] } = .ok machine ∧
        let zero : Request := .draw 0 5 60 30
        let one : Request := .draw 5 5 (-3) 100
        (machine.session [one, zero]).2 = (machine.session [zero, one]).2 ∧
          (machine.session [zero, one, zero, one]).2 = machine ∧
            ∃ first second,
              machine.session [zero, zero] =
                  ([.ok (.truth first), .ok (.truth second)], machine) ∧
                (first = true ∨ second = true) := by
  obtain ⟨machine, booted, landed⟩ : ∃ machine : Machine ByteCycle,
      boot [] { clipSprites := false } { values := [] } = .ok machine ∧
        (machine.memory.cell 0).toBitVec.getMsbD 0 = true ∧
          Framebuffer.Lands machine.display.clip 60 30 0 0 60 30 := ⟨_, rfl, by decide +kernel⟩
  refine ⟨machine, booted, ?_⟩
  intro zero one
  have inside : ∀ request ∈ [zero, one], request.Overlays := by
    simp [zero, one, Request.Overlays, Memory.InRange]
  have twice : ∀ request ∈ [zero, one] ++ [zero, one], request.Overlays := fun request member =>
    inside request ((List.mem_append.mp member).elim id id)
  refine ⟨((draws_cancel machine).1 _ inside).2.1 _ (.swap one zero []),
    ((draws_cancel machine).1 _ twice).2.2 (even_count_append_self [zero, one]), ?_⟩
  obtain ⟨first, second, replies, collides⟩ :=
    (draws_cancel machine).2 0 60 30 5 (by decide)
  exact ⟨first, second, replies, collides.mpr ⟨60, 30, 0, 0, by decide, by decide, landed⟩⟩

end Session

end Machine

end Chip8
