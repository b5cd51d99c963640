import Befunge.Proofs.Confinement
import Mathlib.Data.Int.ModEq

/-! A playfield closes up at its edges, so that moving over it is arithmetic on a torus. Only the
number of moves in each direction counts, and not their order. -/
namespace Befunge

def Heading.opposite : Heading → Heading
  | right => left
  | left => right
  | up => down
  | down => up

section Axis

variable {extent : ℕ} {coordinate : Int64}

/-- Moves along one axis, one offset after the other. -/
def slide (extent : ℕ) (coordinate : Int64) (offsets : List Int64) : Int64 :=
  offsets.foldl (fun coordinate offset => wrap (coordinate + offset) extent) coordinate

theorem toInt_slide (small : extent < 2 ^ 63) (inside : OnAxis extent coordinate)
    {offsets : List Int64} (short : ∀ offset ∈ offsets, -1 ≤ offset.toInt ∧ offset.toInt ≤ 1) :
    (slide extent coordinate offsets).toInt =
      (coordinate.toInt + (offsets.map Int64.toInt).sum) % extent := by
  induction offsets generalizing coordinate with
  | nil =>
    rw [List.map_nil, List.sum_nil, Int.add_zero, Int.emod_eq_of_lt inside.1 inside.2]
    rfl
  | cons offset offsets ih =>
    obtain ⟨first, short⟩ := List.forall_mem_cons.mp short
    calc (slide extent (wrap (coordinate + offset) extent) offsets).toInt
      _ = ((wrap (coordinate + offset) extent).toInt + (offsets.map Int64.toInt).sum) % extent :=
          ih (wrap_onAxis small inside first) short
      _ = (coordinate.toInt + ((offset :: offsets).map Int64.toInt).sum) % extent := by
          rw [toInt_wrap small inside first, Int.emod_add_emod, List.map_cons, List.sum_cons,
            Int.add_assoc]

end Axis

namespace Pointer

def place (pointer : Pointer) : Int64 × Int64 := (pointer.x, pointer.y)

def move (width height : ℕ) (pointer : Pointer) (heading : Heading) : Pointer :=
  (pointer.turn heading).advance width height

def walk (pointer : Pointer) (width height : ℕ) (moves : List Heading) : Pointer :=
  moves.foldl (move width height) pointer

theorem place_walk (pointer : Pointer) (width height : ℕ) (moves : List Heading) :
    (pointer.walk width height moves).place =
      (slide width pointer.x (moves.map (·.offset.1)),
        slide height pointer.y (moves.map (·.offset.2))) := by
  induction moves generalizing pointer with
  | nil => rfl
  | cons heading moves ih => exact ih (pointer.move width height heading)

/-- Cells gained to the right and downwards. -/
def drift (moves : List Heading) : ℤ × ℤ :=
  (moves.count .right - moves.count .left, moves.count .down - moves.count .up)

theorem sum_offsets (moves : List Heading) :
    ((moves.map (·.offset.1)).map Int64.toInt).sum = (drift moves).1 ∧
      ((moves.map (·.offset.2)).map Int64.toInt).sum = (drift moves).2 := by
  induction moves with
  | nil => exact ⟨rfl, rfl⟩
  | cons heading moves ih =>
    have forth : (1 : Int64).toInt = 1 := rfl
    have back : (-1 : Int64).toInt = -1 := rfl
    simp only [List.map_cons, List.sum_cons, ih.1, ih.2, drift]
    cases heading <;> simp [Heading.offset, forth, back] <;> omega

section Walking

variable {width height : ℕ} {pointer : Pointer} (narrow : width < 2 ^ 63) (low : height < 2 ^ 63)
  (within : pointer.Within width height)

include narrow low within

theorem walk_within (moves : List Heading) :
    (pointer.walk width height moves).Within width height := by
  induction moves generalizing pointer with
  | nil => exact within
  | cons heading moves ih =>
    have turned : (pointer.turn heading).Within width height := ⟨within.x, within.y⟩
    exact ih (turned.advance narrow low)

theorem toInt_walk (moves : List Heading) :
    (pointer.walk width height moves).x.toInt =
        (pointer.x.toInt + (drift moves).1) % width ∧
      (pointer.walk width height moves).y.toInt =
        (pointer.y.toInt + (drift moves).2) % height := by
  obtain ⟨x, y⟩ := Prod.mk.inj (pointer.place_walk width height moves)
  obtain ⟨columns, rows⟩ := sum_offsets moves
  have short := fun (heading : Heading) (_ : heading ∈ moves) => heading.offset_short
  rw [x, y, ← columns, ← rows]
  constructor
  · apply toInt_slide narrow within.x
    exact List.forall_mem_map.mpr fun heading member => (short heading member).1
  · apply toInt_slide low within.y
    exact List.forall_mem_map.mpr fun heading member => (short heading member).2

theorem place_eq_of_congruent {first second : List Heading}
    (columns : (drift first).1 ≡ (drift second).1 [ZMOD width])
    (rows : (drift first).2 ≡ (drift second).2 [ZMOD height]) :
    (pointer.walk width height first).place = (pointer.walk width height second).place := by
  obtain ⟨firstX, firstY⟩ := toInt_walk narrow low within first
  obtain ⟨secondX, secondY⟩ := toInt_walk narrow low within second
  refine congrArg₂ Prod.mk (Int64.toInt_inj.mp ?_) (Int64.toInt_inj.mp ?_)
  · rw [firstX, secondX]
    exact columns.add_left pointer.x.toInt
  · rw [firstY, secondY]
    exact rows.add_left pointer.y.toInt

theorem place_of_circle {circle : List Heading} (columns : (width : ℤ) ∣ (drift circle).1)
    (rows : (height : ℤ) ∣ (drift circle).2) :
    (pointer.walk width height circle).place = pointer.place := by
  change _ = (pointer.walk width height []).place
  apply place_eq_of_congruent narrow low within
  · exact Int.modEq_zero_iff_dvd.mpr columns
  · exact Int.modEq_zero_iff_dvd.mpr rows

end Walking

theorem drift_of_perm {first second : List Heading} (same : first.Perm second) :
    drift first = drift second := by
  simp only [drift, same.count_eq]

theorem drift_of_opposite (before between after : List Heading) (heading : Heading) :
    drift (before ++ heading :: between ++ heading.opposite :: after) =
      drift (before ++ between ++ after) := by
  cases heading <;> simp [drift, Heading.opposite] <;> omega

theorem drift_replicate (count : ℕ) (heading : Heading) :
    drift (List.replicate count heading) =
      (count * heading.offset.1.toInt, count * heading.offset.2.toInt) := by
  obtain ⟨columns, rows⟩ := sum_offsets (List.replicate count heading)
  refine Prod.ext (columns.symm.trans ?_) (rows.symm.trans ?_) <;> simp

/-- A pointer moves by the number of moves in each direction, around the playfield as often as it
takes, and no sum on its way overflows. -/
theorem movement_on_torus {width height : ℕ} (narrow : width < 2 ^ 63) (low : height < 2 ^ 63)
    {pointer : Pointer} (within : pointer.Within width height) :
    (∀ moves : List Heading,
      let reached := pointer.walk width height moves
      reached.x.toInt = (pointer.x.toInt + moves.count .right - moves.count .left) % width ∧
      reached.y.toInt = (pointer.y.toInt + moves.count .down - moves.count .up) % height) ∧
    (∀ moves others : List Heading, moves.Perm others →
      (pointer.walk width height moves).place = (pointer.walk width height others).place) ∧
    (∀ (before between after : List Heading) (heading : Heading),
      let detour := before ++ heading :: between ++ heading.opposite :: after
      (pointer.walk width height detour).place =
        (pointer.walk width height (before ++ between ++ after)).place) ∧
    (pointer.walk width height (List.replicate width .right)).place = pointer.place ∧
    (pointer.walk width height (List.replicate height .down)).place = pointer.place ∧
    ∀ (moves : List Heading) (heading : Heading),
      let reached := pointer.walk width height moves
      (reached.x + heading.offset.1).toInt = reached.x.toInt + heading.offset.1.toInt ∧
      (reached.y + heading.offset.2).toInt = reached.y.toInt + heading.offset.2.toInt := by
  refine ⟨fun moves => ?_, fun moves others same => ?_, fun before between after heading => ?_,
    ?_, ?_, fun moves heading => ?_⟩
  · obtain ⟨x, y⟩ := toInt_walk narrow low within moves
    exact ⟨by rw [x, drift, add_sub_assoc], by rw [y, drift, add_sub_assoc]⟩
  · have drifts := drift_of_perm same
    exact place_eq_of_congruent narrow low within (by rw [drifts]) (by rw [drifts])
  · have drifts := drift_of_opposite before between after heading
    exact place_eq_of_congruent narrow low within (by rw [drifts]) (by rw [drifts])
  · apply place_of_circle narrow low within <;> simp [drift_replicate, Heading.offset]
  · apply place_of_circle narrow low within <;> simp [drift_replicate, Heading.offset]
  · have reached := walk_within narrow low within moves
    obtain ⟨columns, rows⟩ := heading.offset_short
    exact ⟨toInt_add_short narrow reached.x columns, toInt_add_short low reached.y rows⟩

/-- From the last column of a playfield as wide as can be, with a single row. -/
theorem movement_on_torus_of_corner :
    let corner : Pointer := ⟨9223372036854775806, 0, .up⟩
    let reached := corner.walk (2 ^ 63 - 1) 1 [.right, .down, .right, .up, .up]
    corner.Within (2 ^ 63 - 1) 1 ∧ reached.x.toInt = 1 ∧ reached.y.toInt = 0 := by
  intro corner reached
  have within : corner.Within (2 ^ 63 - 1) 1 := ⟨⟨by decide, by decide⟩, by decide, by decide⟩
  obtain ⟨x, y⟩ := (movement_on_torus (by decide) (by decide) within).1
    [.right, .down, .right, .up, .up]
  exact ⟨within, x.trans (by decide), y.trans (by decide)⟩

end Pointer

end Befunge
