import Befunge.Raster
import Befunge.Text.Lines

/-! The playfield: a rectangle of characters that a program is read from and can
change while it runs. -/
namespace Befunge

structure Cell where
  symbol : Char
  /-- Set once the running program has written to the cell. -/
  modified : Bool
  deriving DecidableEq

abbrev Playfield := Raster Cell

namespace Playfield

def build (source : String) : Playfield :=
  let lines := (Text.sourceLines source.toList).map fun line => line.map (Cell.mk · false)
  .ofLines lines ⟨' ', false⟩

def isEmpty (field : Playfield) : Bool := field.width == 0 || field.height == 0

def contains (field : Playfield) (x y : Int64) : Bool :=
  0 ≤ x && 0 ≤ y && x.toNatClampNeg < field.width && y.toNatClampNeg < field.height

def cell? (field : Playfield) (x y : Int64) : Option Cell :=
  if field.contains x y then field.get? x.toNatClampNeg y.toNatClampNeg else none

/-- All cells outside the playfield read as spaces. -/
def read (field : Playfield) (x y : Int64) : Char :=
  match field.cell? x y with
  | some cell => cell.symbol
  | none => ' '

def write? (field : Playfield) (x y : Int64) (symbol : Char) : Option Playfield :=
  if field.contains x y then
    some (field.modify x.toNatClampNeg y.toNatClampNeg fun _ => ⟨symbol, true⟩)
  else none

def modifiedCells (field : Playfield) : List (Nat × Nat × Char) :=
  field.rows.toList.zipIdx.flatMap fun (row, y) =>
    row.toList.zipIdx.filterMap fun (cell, x) =>
      if cell.modified then some (x, y, cell.symbol) else none

def modifiedCount (field : Playfield) : Nat :=
  field.rows.foldl (fun count row => count + row.countP Cell.modified) 0

/-- Bytes charged for keeping a copy: four for a cell, sixteen more for each
modified one. -/
def footprint (field : Playfield) : Nat :=
  4 * field.width * field.height + 16 * field.modifiedCount

def lines (field : Playfield) : List (List Char) :=
  field.rows.toList.map fun row => row.toList.map Cell.symbol

theorem length_modified_row (cells : Array Cell) (y : Nat) :
    (cells.toList.zipIdx.filterMap fun (cell, x) =>
      if cell.modified then some (x, y, cell.symbol) else none).length =
      cells.countP Cell.modified := by
  have marked : (fun entry : Cell × Nat => (if entry.1.modified then
      some (entry.2, y, entry.1.symbol) else none).isSome) = Cell.modified ∘ Prod.fst := by
    funext entry
    cases marked : entry.1.modified <;> simp [marked]
  rw [List.length_filterMap_eq_countP, marked, ← List.countP_map, List.zipIdx_map_fst,
    Array.countP_toList]

theorem modifiedCount_eq_length (field : Playfield) :
    field.modifiedCount = field.modifiedCells.length := by
  have rows : field.rows.toList.map (Array.countP Cell.modified) =
      field.rows.toList.zipIdx.map (Array.countP Cell.modified ∘ Prod.fst) := by
    rw [← List.map_map, List.zipIdx_map_fst]
  rw [modifiedCells, List.length_flatMap]
  simp only [length_modified_row]
  rw [modifiedCount, ← Array.foldl_toList, ← List.foldl_map, ← List.sum_eq_foldl, rows]
  rfl

theorem isSome_cell? (field : Playfield) (x y : Int64) :
    (field.cell? x y).isSome = field.contains x y := by
  unfold cell?
  split
  · rename_i inside
    rw [inside, Raster.isSome_get?]
    simp only [contains, Bool.and_eq_true, decide_eq_true_eq] at inside
    exact ⟨inside.1.2, inside.2⟩
  · rename_i outside
    simpa using outside

theorem isSome_write? (field : Playfield) (x y : Int64) (symbol : Char) :
    (field.write? x y symbol).isSome = field.contains x y := by
  unfold write?
  cases field.contains x y <;> rfl

end Playfield

end Befunge
