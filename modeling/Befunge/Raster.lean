/-! Rectangular arrays of cells, addressed by column and row. -/
namespace Befunge

structure Raster (α : Type) where
  width : Nat
  rows : Array (Array α)
  rectangular : ∀ row ∈ rows, row.size = width
  deriving DecidableEq

namespace Raster

variable {α : Type}

def height (raster : Raster α) : Nat := raster.rows.size

def get? (raster : Raster α) (x y : Nat) : Option α :=
  raster.rows[y]?.bind fun row => row[x]?

def replicate (width height : Nat) (cell : α) : Raster α where
  width
  rows := Array.replicate height (Array.replicate width cell)
  rectangular row member := by
    rw [Array.eq_of_mem_replicate member, Array.size_replicate]

def widest (lines : List (List α)) : Nat := (lines.map List.length).foldr max 0

theorem length_le_widest {lines : List (List α)} {line : List α} (member : line ∈ lines) :
    line.length ≤ widest lines := by
  induction lines with
  | nil => simp at member
  | cons head rest ih =>
    simp only [widest, List.map_cons, List.foldr_cons]
    rcases List.mem_cons.mp member with rfl | inRest
    · exact Nat.le_max_left ..
    · exact Nat.le_trans (ih inRest) (Nat.le_max_right ..)

/-- Lines one above the other, each filled up to the longest one. -/
def ofLines (lines : List (List α)) (filler : α) : Raster α :=
  let width := widest lines
  { width
    rows := (lines.map fun line => (line.rightpad width filler).toArray).toArray
    rectangular := by
      intro row member
      obtain ⟨line, inLines, rfl⟩ := List.mem_map.mp (List.mem_toArray.mp member)
      have bound := length_le_widest inLines
      simp only [List.size_toArray, List.length_rightpad]
      omega }

theorem get?_ofLines (lines : List (List α)) (filler : α) (x y : Nat) :
    (ofLines lines filler).get? x y =
      lines[y]?.bind fun row => if x < widest lines then some (row[x]?.getD filler) else none := by
  simp only [get?, ofLines, List.getElem?_toArray, List.getElem?_map]
  cases found : lines[y]? with
  | none => rfl
  | some row =>
    have bound := length_le_widest (List.mem_of_getElem? found)
    simp only [Option.map_some, Option.bind_some, List.rightpad, List.getElem?_toArray,
      List.getElem?_append, List.getElem?_replicate]
    by_cases written : x < row.length
    · rw [if_pos written, if_pos (by omega), List.getElem?_eq_getElem written]
      rfl
    · have same : x - row.length < widest lines - row.length ↔ x < widest lines := by omega
      rw [if_neg written, List.getElem?_eq_none (by omega)]
      simp only [same, Option.getD_none]

def modify (raster : Raster α) (x y : Nat) (change : α → α) : Raster α where
  width := raster.width
  rows := raster.rows.modify y fun row => row.modify x change
  rectangular row member := by
    obtain ⟨index, inside, rfl⟩ := Array.mem_iff_getElem.mp member
    rw [Array.getElem_modify]
    rw [Array.size_modify] at inside
    split
    · rw [Array.size_modify]
      exact raster.rectangular _ (Array.getElem_mem _)
    · exact raster.rectangular _ (Array.getElem_mem _)

@[simp]
theorem width_modify (raster : Raster α) (x y : Nat) (change : α → α) :
    (raster.modify x y change).width = raster.width := rfl

@[simp]
theorem height_modify (raster : Raster α) (x y : Nat) (change : α → α) :
    (raster.modify x y change).height = raster.height := by
  simp only [height, modify, Array.size_modify]

/-- A change is seen at its own place and nowhere else. -/
theorem get?_modify (raster : Raster α) (x y column row : Nat) (change : α → α) :
    (raster.modify x y change).get? column row =
      if column = x ∧ row = y then (raster.get? column row).map change
      else raster.get? column row := by
  simp only [get?, modify, Array.getElem?_modify]
  by_cases sameRow : y = row
  · subst sameRow
    cases raster.rows[y]? with
    | none => simp
    | some cells => by_cases same : x = column <;> simp [Array.getElem?_modify, same, eq_comm]
  · simp [sameRow, Ne.symm sameRow]

theorem isSome_get? (raster : Raster α) (x y : Nat) :
    (raster.get? x y).isSome ↔ x < raster.width ∧ y < raster.height := by
  unfold get? height
  by_cases inside : y < raster.rows.size
  · have size := raster.rectangular _ (Array.getElem_mem inside)
    rw [Array.getElem?_eq_getElem inside, Option.bind_some, isSome_getElem?, size]
    exact ⟨fun column => ⟨column, inside⟩, And.left⟩
  · rw [Array.getElem?_eq_none (by omega)]
    simp [inside]

theorem get?_replicate (width height x y : Nat) (cell : α) :
    (replicate width height cell).get? x y = if x < width ∧ y < height then some cell else none := by
  simp only [get?, replicate, Array.getElem?_replicate]
  by_cases row : y < height <;> by_cases column : x < width <;>
    simp [row, column]

end Raster

end Befunge
