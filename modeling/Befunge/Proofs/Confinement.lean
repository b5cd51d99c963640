import Befunge.Proofs.Coherence
import Mathlib.Algebra.Ring.Nat

/-! Programs stay on the playfield they were built with. Its extent never changes, the
pointer never leaves it, and a cell that was not written to is as it was built. -/
namespace Befunge

/-- A coordinate on an axis of the given extent. -/
def OnAxis (extent : Nat) (coordinate : Int64) : Prop :=
  0 ≤ coordinate.toInt ∧ coordinate.toInt < extent

section Axis

variable {extent : Nat} {coordinate offset : Int64}

theorem toInt_add_short (small : extent < 2 ^ 63) (inside : OnAxis extent coordinate)
    (short : -1 ≤ offset.toInt ∧ offset.toInt ≤ 1) :
    (coordinate + offset).toInt = coordinate.toInt + offset.toInt := by
  obtain ⟨low, high⟩ := inside
  rw [Int64.toInt_add]
  apply Int.bmod_eq_of_le <;> omega

/-- Moving by one cell is addition around the axis, and it does not overflow. -/
theorem toInt_wrap (small : extent < 2 ^ 63) (inside : OnAxis extent coordinate)
    (short : -1 ≤ offset.toInt ∧ offset.toInt ≤ 1) :
    (wrap (coordinate + offset) extent).toInt = (coordinate.toInt + offset.toInt) % extent := by
  have moved := toInt_add_short small inside short
  obtain ⟨low, high⟩ := inside
  have size : (Int64.ofNat extent).toInt = extent := Int64.toInt_ofNat_of_lt small
  have last : (Int64.ofNat extent - 1).toInt = extent - 1 := by
    rw [Int64.toInt_sub, size, show (1 : Int64).toInt = 1 from rfl]
    apply Int.bmod_eq_of_le <;> omega
  have zero : (0 : Int64).toInt = 0 := rfl
  simp only [wrap, Int64.lt_iff_toInt_lt, Int64.le_iff_toInt_le, moved, size, zero]
  split_ifs with empty left right
  · omega
  · rw [last, ← Int.add_emod_right, Int.emod_eq_of_lt] <;> omega
  · rw [zero, show coordinate.toInt + offset.toInt = extent by omega, Int.emod_self]
  · rw [moved, Int.emod_eq_of_lt] <;> omega

theorem wrap_onAxis (small : extent < 2 ^ 63) (inside : OnAxis extent coordinate)
    (short : -1 ≤ offset.toInt ∧ offset.toInt ≤ 1) :
    OnAxis extent (wrap (coordinate + offset) extent) := by
  have positive : (0 : Int) < extent := Int.lt_of_le_of_lt inside.1 inside.2
  rw [OnAxis, toInt_wrap small inside short]
  exact ⟨Int.emod_nonneg _ (Int.ne_of_gt positive), Int.emod_lt_of_pos _ positive⟩

end Axis

theorem Heading.offset_short (heading : Heading) :
    (-1 ≤ heading.offset.1.toInt ∧ heading.offset.1.toInt ≤ 1) ∧
      -1 ≤ heading.offset.2.toInt ∧ heading.offset.2.toInt ≤ 1 := by
  cases heading <;> decide

structure Pointer.Within (width height : Nat) (pointer : Pointer) : Prop where
  x : OnAxis width pointer.x
  y : OnAxis height pointer.y

theorem Pointer.Within.advance {width height : Nat} {pointer : Pointer}
    (within : pointer.Within width height) (narrow : width < 2 ^ 63) (low : height < 2 ^ 63) :
    (pointer.advance width height).Within width height where
  x := wrap_onAxis narrow within.x pointer.heading.offset_short.1
  y := wrap_onAxis low within.y pointer.heading.offset_short.2

namespace Playfield

variable {field base : Playfield}

theorem mem_modifiedCells (field : Playfield) (x y : Nat) (symbol : Char) :
    (x, y, symbol) ∈ field.modifiedCells ↔ field.get? x y = some ⟨symbol, true⟩ := by
  have listed : (x, y, symbol) ∈ field.modifiedCells ↔ ∃ row, field.rows[y]? = some row ∧
      ∃ cell, row[x]? = some cell ∧ cell.modified = true ∧ cell.symbol = symbol := by
    simp [modifiedCells, List.mem_zipIdx_iff_getElem?]
  rw [listed, Raster.get?, Option.bind_eq_some_iff]
  refine exists_congr fun row => and_congr_right fun _ => ?_
  constructor
  · rintro ⟨⟨_, _⟩, found, rfl, rfl⟩
    exact found
  · intro found
    exact ⟨_, found, rfl, rfl⟩

theorem modified_of_build {source : String} {x y : Nat} {cell : Cell}
    (found : (build source).get? x y = some cell) : cell.modified = false := by
  rw [build, Raster.get?_ofLines, List.getElem?_map, Option.bind_map] at found
  obtain ⟨row, _, found⟩ := Option.bind_eq_some_iff.mp found
  simp only [Function.comp_apply, List.getElem?_map] at found
  split at found
  · obtain rfl := Option.some.inj found
    cases row[x]? <;> rfl
  · cases found

theorem modifiedCells_build (source : String) : (build source).modifiedCells = [] := by
  apply List.eq_nil_iff_forall_not_mem.mpr
  rintro ⟨x, y, symbol⟩ member
  cases modified_of_build ((mem_modifiedCells ..).mp member)

/-- A playfield as another one that has been written to. -/
structure Overlays (field base : Playfield) : Prop where
  width : field.width = base.width
  height : field.height = base.height
  cells : ∀ x y, field.get? x y = base.get? x y ∨ ∃ symbol, field.get? x y = some ⟨symbol, true⟩

theorem Overlays.refl (field : Playfield) : field.Overlays field :=
  ⟨rfl, rfl, fun _ _ => .inl rfl⟩

theorem Overlays.trans {middle : Playfield} (upper : field.Overlays middle)
    (lower : middle.Overlays base) : field.Overlays base where
  width := upper.width.trans lower.width
  height := upper.height.trans lower.height
  cells x y := by
    rcases upper.cells x y with same | written
    · rw [same]
      exact lower.cells x y
    · exact .inr written

theorem write?_overlays {x y : Int64} {symbol : Char} (written : base.write? x y symbol = some field) :
    field.Overlays base := by
  unfold write? at written
  split at written
  · obtain rfl := Option.some.inj written
    refine ⟨rfl, Raster.height_modify .., ?_⟩
    intro column row
    rw [Raster.get?_modify]
    split
    · cases base.get? column row with
      | none => exact .inl rfl
      | some cell => exact .inr ⟨symbol, rfl⟩
    · exact .inl rfl
  · cases written

theorem Overlays.isEmpty (overlays : field.Overlays base) : field.isEmpty = base.isEmpty := by
  rw [Playfield.isEmpty, Playfield.isEmpty, overlays.width, overlays.height]

theorem Overlays.mem_bounds (overlays : field.Overlays base) {x y : Nat} {symbol : Char}
    (modified : (x, y, symbol) ∈ field.modifiedCells) : x < base.width ∧ y < base.height := by
  rw [mem_modifiedCells] at modified
  rw [← overlays.width, ← overlays.height, ← Raster.isSome_get?, modified]
  rfl

theorem Overlays.get?_of_unmodified (overlays : field.Overlays base) {x y : Nat}
    (unmodified : ∀ symbol, (x, y, symbol) ∉ field.modifiedCells) :
    field.get? x y = base.get? x y := by
  rcases overlays.cells x y with same | ⟨symbol, written⟩
  · exact same
  · exact absurd ((mem_modifiedCells ..).mpr written) (unmodified symbol)

end Playfield

namespace Machine

variable {machine : Machine}

theorem execute_overlays (answer : Heading) (machine : Machine) (instruction : Instruction) :
    (machine.execute answer instruction).field.Overlays machine.field := by
  by_cases isPut : instruction = .put
  · simp only [isPut, execute, put_eq]
    cases written : machine.written? with
    | none => exact .refl _
    | some field =>
      obtain ⟨symbol, _, written⟩ := Option.bind_eq_some_iff.mp written
      exact Playfield.write?_overlays written
  · rw [execute_field answer machine isPut]
    exact .refl _

theorem dispatch_overlays (answer : Heading) (machine : Machine) :
    (machine.dispatch answer).field.Overlays machine.field := by
  unfold dispatch
  split
  · exact .refl _
  · exact execute_overlays ..

theorem cycle_overlays (answer : Heading) (machine : Machine) :
    (machine.cycle answer).field.Overlays machine.field :=
  dispatch_overlays answer machine

/-- A dispatch turns the pointer or, on a trampoline, moves it on by one cell. -/
theorem dispatch_pointer (answer : Heading) (machine : Machine) :
    (∃ heading, (machine.dispatch answer).pointer = machine.pointer.turn heading) ∨
      (machine.dispatch answer).pointer =
        machine.pointer.advance machine.field.width machine.field.height := by
  unfold dispatch
  split
  · exact .inl ⟨_, rfl⟩
  · cases Instruction.decode machine.symbol with
    | trampoline => exact .inr rfl
    | put =>
      simp only [execute, put_eq]
      exact .inl ⟨_, rfl⟩
    | _ => exact .inl ⟨_, rfl⟩

theorem cycle_pointer (answer : Heading) (machine : Machine) : (machine.cycle answer).pointer =
    (machine.dispatch answer).pointer.advance machine.field.width machine.field.height := by
  have overlays := dispatch_overlays answer machine
  rw [← overlays.width, ← overlays.height]
  rfl

theorem cycle_within (answer : Heading) {width height : Nat} (narrow : width < 2 ^ 63)
    (low : height < 2 ^ 63) (sameWidth : machine.field.width = width)
    (sameHeight : machine.field.height = height) (within : machine.pointer.Within width height) :
    (machine.cycle answer).pointer.Within width height := by
  rw [cycle_pointer, sameWidth, sameHeight]
  apply Pointer.Within.advance _ narrow low
  rcases machine.dispatch_pointer answer with ⟨heading, turned⟩ | jumped
  · rw [turned]
    exact ⟨within.x, within.y⟩
  · rw [jumped, sameWidth, sameHeight]
    exact within.advance narrow low

/-- A machine on the playfield it was built with. -/
structure Confined (built : Playfield) (machine : Machine) : Prop where
  overlays : machine.field.Overlays built
  inside : built.isEmpty = false → machine.pointer.Within built.width built.height
  origin : built.isEmpty = true → machine.pointer.x = 0 ∧ machine.pointer.y = 0

theorem load_confined (source : String) : (load source).Confined (.build source) where
  overlays := .refl _
  inside filled := by
    simp only [Playfield.isEmpty, Bool.or_eq_false_iff, beq_eq_false_iff_ne] at filled
    have zero : (0 : Int64).toInt = 0 := rfl
    refine ⟨?_, ?_⟩ <;> simp only [OnAxis, load, Pointer.start, zero] <;> omega
  origin _ := ⟨rfl, rfl⟩

variable {built : Playfield}

theorem Confined.turn (confined : machine.Confined built) (heading : Heading) :
    (machine.turn heading).Confined built where
  overlays := confined.overlays
  inside filled := ⟨(confined.inside filled).x, (confined.inside filled).y⟩
  origin := confined.origin

theorem Confined.step (confined : machine.Confined built) (narrow : built.width < 2 ^ 63)
    (low : built.height < 2 ^ 63) (limit : Nat) (answer : Heading) :
    (machine.step limit answer).Confined built := by
  cases decided : machine.verdict limit with
  | some halt =>
    rw [step_of_verdict decided]
    exact ⟨confined.overlays, confined.inside, confined.origin⟩
  | none =>
    rw [step_of_running decided]
    refine ⟨(cycle_overlays answer machine).trans confined.overlays, ?_, ?_⟩
    · intro filled
      exact cycle_within answer narrow low confined.overlays.width confined.overlays.height
        (confined.inside filled)
    · intro empty
      -- No cycle ever runs on a playfield without cells.
      rw [← confined.overlays.isEmpty] at empty
      simp [verdict, empty] at decided

end Machine

namespace Session

variable {σ : Type} [DirectionSource σ]

/-- In every state that a session is in or has recorded, the playfield has the extent it
was built with, the pointer is on it, and only cells listed as modified may differ from
what was built. -/
theorem program_confined (source : String) (config : Config) (directions : σ)
    (commands : List Command) (narrow : (Playfield.build source).width < 2 ^ 63)
    (low : (Playfield.build source).height < 2 ^ 63) :
    let built := Playfield.build source
    let session := (Session.new source config directions).after commands
    ∀ machine, machine = session.machine ∨
        machine ∈ session.timeline.snapshots.toList.map Snapshot.machine →
      machine.field.width = built.width ∧ machine.field.rows.size = built.rows.size ∧
      (∀ row ∈ machine.field.rows, row.size = built.width) ∧
      (built.isEmpty = false →
        (0 ≤ machine.pointer.x.toInt ∧ machine.pointer.x.toInt < built.width) ∧
        0 ≤ machine.pointer.y.toInt ∧ machine.pointer.y.toInt < built.height) ∧
      (built.isEmpty = true → machine.pointer.x = 0 ∧ machine.pointer.y = 0) ∧
      (∀ x y symbol, (x, y, symbol) ∈ machine.field.modifiedCells →
        x < built.width ∧ y < built.height) ∧
      ∀ x y, (∀ symbol, (x, y, symbol) ∉ machine.field.modifiedCells) →
        (machine.field.get? x y).map Cell.symbol = (built.get? x y).map Cell.symbol := by
  intro built session machine visited
  have upheld := new_after_upholds source config directions commands
    (Machine.load_confined source) (fun _ heading confined => confined.turn heading)
    (fun _ answer confined => confined.step narrow low config.stepLimit answer)
  have confined : machine.Confined built := by
    rcases visited with rfl | recorded
    · exact upheld.1
    · obtain ⟨snapshot, member, rfl⟩ := List.mem_map.mp recorded
      exact upheld.2 snapshot member
  have overlays := confined.overlays
  refine ⟨overlays.width, overlays.height, ?_, ?_, confined.origin, ?_, ?_⟩
  · intro row member
    rw [← overlays.width]
    exact machine.field.rectangular row member
  · intro filled
    exact ⟨(confined.inside filled).x, (confined.inside filled).y⟩
  · intro x y symbol modified
    exact overlays.mem_bounds modified
  · intro x y unmodified
    rw [overlays.get?_of_unmodified unmodified]

/-- A put changes a cell, and then a trampoline in the corner leads over the edge. -/
theorem program_confined_of_corner :
    let built := Playfield.build "v\n>900p#"
    let session := (Session.new "v\n>900p#" ⟨100, true, 10000⟩ (Script.ofList [])).after
      [.step, .step, .step, .step, .step, .step, .step]
    session.machine.pointer = ⟨1, 1, .right⟩ ∧
    session.machine.field.modifiedCells = [(0, 0, '\t')] ∧
    (built.width < 2 ^ 63 ∧ built.height < 2 ^ 63) ∧
    ∀ machine ∈ session.timeline.snapshots.toList.map Snapshot.machine,
      (0 ≤ machine.pointer.x.toInt ∧ machine.pointer.x.toInt < built.width) ∧
      0 ≤ machine.pointer.y.toInt ∧ machine.pointer.y.toInt < built.height := by
  refine ⟨by decide +kernel, by decide +kernel, by decide +kernel, ?_⟩
  intro machine recorded
  obtain ⟨_, _, _, inside, _⟩ := program_confined "v\n>900p#" ⟨100, true, 10000⟩ (Script.ofList [])
    [.step, .step, .step, .step, .step, .step, .step] (by decide +kernel) (by decide +kernel)
    machine (.inr recorded)
  exact inside (by decide +kernel)

end Session

end Befunge
