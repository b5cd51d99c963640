import Befunge.Proofs.Legibility
import Befunge.Proofs.Overlay

/-! The window that the field pane shows: which cells stand where on the screen, and where the cell of
the pointer is marked. -/
namespace Befunge

namespace Viewer

section Following

variable (offset position visible : UInt64) (some : 0 < visible.toNat)
  (small : position.toNat + visible.toNat < 2 ^ 64)

include some small

theorem toNat_follow : (follow offset position visible).toNat =
    if position.toNat < offset.toNat then position.toNat
    else if offset.toNat + visible.toNat ≤ position.toNat then position.toNat + 1 - visible.toNat
    else offset.toNat := by
  have one : (1 : UInt64).toNat = 1 := rfl
  simp only [follow, UInt64.lt_iff_toNat_lt, UInt64.le_iff_toNat_le]
  split_ifs with before wrapped after after
  · rfl
  · rw [UInt64.toNat_sub, UInt64.toNat_add, one]
    omega
  · rw [UInt64.toNat_add] at wrapped
    omega
  · rw [UInt64.toNat_add] at wrapped
    omega
  · rfl

theorem follow_visible : (follow offset position visible).toNat ≤ position.toNat ∧
    position.toNat < (follow offset position visible).toNat + visible.toNat := by
  rw [toNat_follow offset position visible some small]
  split_ifs <;> omega

end Following

theorem getElem?_page {α : Type} (offset visible : ℕ) (items : List α) (index : ℕ) :
    (page offset visible items)[index]? =
      if index < visible then items[offset + index]? else none := by
  rw [page, List.getElem?_take, List.getElem?_drop]

namespace FieldView

variable (view : FieldView)

theorem getElem?_lines (scroll : FieldScroll) (columns rows index : ℕ) :
    (view.lines scroll columns rows)[index]? =
      if index < rows then
        view.field.rows[scroll.row.toNat + index]?.map
          (view.rowLine scroll.column.toNat columns (scroll.row.toNat + index))
      else none := by
  rw [lines, List.getElem?_map, getElem?_page, List.getElem?_zipIdx, Array.getElem?_toList]
  split
  · rw [Option.map_map, Nat.zero_add]
    rfl
  · rfl

def cellGlyph (x y : ℕ) (cell : Cell) : Glyph := ⟨shown cell.symbol, view.cellStyle x y cell⟩

theorem glyphs_rowLine (column columns y : ℕ) (row : Array Cell) :
    (view.rowLine column columns y row).flatMap Span.glyphs = (view.gutter y).glyphs ++
      (page column columns row.toList.zipIdx).map fun (cell, x) => view.cellGlyph x y cell := by
  rw [rowLine, List.flatMap_cons, List.flatMap_map, List.map_eq_flatMap]
  rfl

theorem length_gutter_glyphs (y : ℕ) :
    (view.gutter y).glyphs.length = (view.gutter y).text.length := by
  rw [Span.glyphs, List.length_map]

theorem getElem?_rowLine_number {column columns y : ℕ} {row : Array Cell} {index : ℕ}
    (before : index < (view.gutter y).text.length) :
    ((view.rowLine column columns y row).flatMap Span.glyphs)[index]? =
      (view.gutter y).glyphs[index]? := by
  rw [glyphs_rowLine, List.getElem?_append_left (view.length_gutter_glyphs y ▸ before)]

theorem getElem?_rowLine_cell (column columns y : ℕ) (row : Array Cell) (index : ℕ) :
    ((view.rowLine column columns y row).flatMap
        Span.glyphs)[(view.gutter y).text.length + index]? =
      if index < columns then row[column + index]?.map (view.cellGlyph (column + index) y)
      else none := by
  rw [← length_gutter_glyphs, glyphs_rowLine, List.getElem?_append_right (Nat.le_add_right ..),
    Nat.add_sub_cancel_left, List.getElem?_map, getElem?_page, List.getElem?_zipIdx,
    Array.getElem?_toList]
  split
  · rw [Option.map_map, Nat.zero_add]
    rfl
  · rfl

theorem rowLine_cases {column columns y : ℕ} {row : Array Cell} {index : ℕ} {glyph : Glyph}
    (found : ((view.rowLine column columns y row).flatMap Span.glyphs)[index]? = some glyph) :
    glyph ∈ (view.gutter y).glyphs ∨
      ∃ offset < columns, index = (view.gutter y).text.length + offset ∧
        ∃ cell, row[column + offset]? = some cell ∧
          glyph = view.cellGlyph (column + offset) y cell := by
  rcases Nat.lt_or_ge index (view.gutter y).text.length with before | behind
  · rw [getElem?_rowLine_number view before] at found
    exact .inl (List.mem_of_getElem? found)
  · obtain ⟨offset, rfl⟩ := Nat.exists_eq_add_of_le behind
    rw [getElem?_rowLine_cell] at found
    split_ifs at found with visible
    obtain ⟨cell, present, rfl⟩ := Option.map_eq_some_iff.mp found
    exact .inr ⟨offset, visible, rfl, cell, present, rfl⟩

/-- Columns that the number of a row takes. There is none beyond the playfield, but room for it is
left. -/
def indent (y : ℕ) : ℕ := if y < view.field.height then (view.gutter y).text.length else gutterWidth

theorem length_number (y : ℕ) :
    (view.gutter y).text.length = max 4 (Nat.toDigits 10 y).length + 1 := by
  simp only [gutter, List.length_append, List.length_leftpad, List.length_singleton]

theorem indent_eq_iff (y : ℕ) :
    view.indent y = gutterWidth ↔ y < 10000 ∨ view.field.height ≤ y := by
  have digits : (Nat.toDigits 10 y).length ≤ 4 ↔ y < 10 ^ 4 :=
    Nat.length_toDigits_le_iff (by decide) (by decide)
  rw [indent, length_number, gutterWidth]
  split_ifs <;> omega

/-- What the pane shows of the playfield, at its place on the screen. -/
def content (scroll : FieldScroll) (width height : ℕ) : Screen.Content :=
  .block 1 1 (((view.lines scroll (width - 7) (height - 2)).take (height - 2)).map
    (Screen.cut (width - 2)))

section Content

variable {view} {scroll : FieldScroll} {width height : ℕ}

theorem content_eq {index row : ℕ} (columns : index < width - 2) (rows : row < height - 2) :
    view.content scroll width height (1 + index) (1 + row) =
      view.field.rows[scroll.row.toNat + row]?.bind fun cells =>
        ((view.rowLine scroll.column.toNat (width - 7) (scroll.row.toNat + row) cells).flatMap
          Span.glyphs)[index]? := by
  simp only [content, Screen.Content.block, Nat.le_add_right, and_self, if_true,
    Nat.add_sub_cancel_left, List.getElem?_map, List.getElem?_take, rows, getElem?_lines]
  cases view.field.rows[scroll.row.toNat + row]? with
  | none => rfl
  | some cells => simp [Screen.cut, columns]

theorem content_place {x y : ℕ} {glyph : Glyph}
    (found : view.content scroll width height x y = some glyph) :
    ∃ index < width - 2, ∃ row < height - 2, x = 1 + index ∧ y = 1 + row := by
  rw [content, Screen.Content.block] at found
  split_ifs at found with corner
  obtain ⟨glyphs, inRows, inRow⟩ := Option.bind_eq_some_iff.mp found
  obtain ⟨below, rfl⟩ := List.getElem?_eq_some_iff.mp inRows
  obtain ⟨beyond, _⟩ := List.getElem?_eq_some_iff.mp inRow
  simp only [List.getElem_map, Screen.cut, List.length_map, List.length_take] at below beyond
  exact ⟨x - 1, by omega, y - 1, by omega, by omega, by omega⟩

/-- Behind the number of a row come its cells. -/
theorem content_cell {column row : ℕ} (visible : column < width - 7) (rows : row < height - 2)
    (room : view.indent (scroll.row.toNat + row) + column < width - 2) :
    let x := scroll.column.toNat + column
    let y := scroll.row.toNat + row
    view.content scroll width height (1 + view.indent y + column) (1 + row) =
      (view.field.get? x y).map (view.cellGlyph x y) := by
  intro x y
  rw [Nat.add_assoc, content_eq room rows, Raster.get?]
  cases found : view.field.rows[scroll.row.toNat + row]? with
  | none => simp [y]
  | some cells =>
    have inside : y < view.field.height := (Array.getElem?_eq_some_iff.mp found).1
    have indent : view.indent y = (view.gutter y).text.length := if_pos inside
    simp [indent, getElem?_rowLine_cell, visible, x, y]

end Content

section Narrow

variable {view}

def Printable (view : FieldView) : Prop :=
  ∀ row ∈ view.field.rows, ∀ cell ∈ row, 32 ≤ cell.symbol.toNat ∧ cell.symbol.toNat ≤ 126

instance : DecidablePred Printable := fun view =>
  inferInstanceAs (Decidable (∀ row ∈ view.field.rows, ∀ cell ∈ row, _))

theorem plain_of_printable {symbol : Char} (printable : 32 ≤ symbol.toNat ∧ symbol.toNat ≤ 126) :
    Text.isControl symbol = false ∧ Text.columns symbol = 1 := by
  constructor
  · simp only [Text.isControl, Bool.or_eq_false_iff, Bool.and_eq_false_iff, decide_eq_false_iff_not]
    omega
  · rw [Text.columns, if_neg (by omega)]

theorem plain_gutter (y : ℕ) : Text.Plain (view.gutter y).text := by
  have digits := Text.plain_toDigits (by decide : 1 < 10) (by decide) y
  have padding : Text.Plain (List.replicate (4 - (Nat.toDigits 10 y).length) ' ') := by
    intro symbol member
    obtain rfl := List.eq_of_mem_replicate member
    decide
  exact Text.plain_append.mpr ⟨Text.plain_append.mpr ⟨padding, digits⟩, by decide⟩

theorem shown_of_printable {symbol : Char} (printable : 32 ≤ symbol.toNat ∧ symbol.toNat ≤ 126) :
    shown symbol = symbol := by
  rw [shown, (plain_of_printable printable).1]
  rfl

theorem Printable.narrow (printable : view.Printable) {scroll : FieldScroll} {columns rows : ℕ}
    {line : Line} (member : line ∈ view.lines scroll columns rows) {glyph : Glyph}
    (drawn : glyph ∈ line.flatMap Span.glyphs) :
    glyph.symbol ≠ '\n' ∧ Text.columns glyph.symbol = 1 := by
  obtain ⟨index, found⟩ := List.mem_iff_getElem?.mp member
  rw [getElem?_lines] at found
  split_ifs at found
  obtain ⟨cells, present, rfl⟩ := Option.map_eq_some_iff.mp found
  obtain ⟨place, at_place⟩ := List.mem_iff_getElem?.mp drawn
  rcases view.rowLine_cases at_place with number | ⟨offset, _, _, cell, inRow, rfl⟩
  · obtain ⟨symbol, given, rfl⟩ := List.mem_map.mp number
    exact (plain_gutter _).narrow given
  · have given := printable cells (Array.mem_of_getElem? present) cell (Array.mem_of_getElem? inRow)
    have plain : Text.Plain [cell.symbol] := List.forall_mem_singleton.mpr (plain_of_printable given)
    rw [cellGlyph, shown_of_printable given]
    exact plain.narrow (List.mem_singleton.mpr rfl)

/-- A cell is shown as it is, and a space where there is none. -/
theorem Printable.symbol_cellGlyph (printable : view.Printable) (x y : ℕ) :
    (((view.field.get? x y).map (view.cellGlyph x y)).getD .empty).symbol =
      ((view.field.get? x y).map Cell.symbol).getD ' ' := by
  cases found : view.field.get? x y with
  | none => rfl
  | some cell =>
    obtain ⟨cells, present, inRow⟩ := Option.bind_eq_some_iff.mp found
    exact shown_of_printable
      (printable cells (Array.mem_of_getElem? present) cell (Array.mem_of_getElem? inRow))

end Narrow

section Marking

variable {view}

theorem symbolStyle_colored (symbol : Char) : (symbolStyle symbol).foreground ≠ some .black := by
  by_cases gap : symbol = ' '
  · subst gap
    decide
  · simp only [symbolStyle, if_neg gap]
    split <;> decide

theorem gutter_colored {y : ℕ} {glyph : Glyph} (member : glyph ∈ (view.gutter y).glyphs) :
    glyph.style.foreground ≠ some .black := by
  obtain ⟨_, _, rfl⟩ := List.mem_map.mp member
  simp only [gutter]
  split <;> decide

/-- A glyph that is black and bold on the colour of the pointer. -/
def Marked (view : FieldView) (glyph : Glyph) : Prop :=
  glyph.style.foreground = some .black ∧ glyph.style.bold = true ∧
    glyph.style.background = some view.pointerColor

def column (view : FieldView) : ℕ := view.pointer.x.toNatClampNeg

def row (view : FieldView) : ℕ := view.pointer.y.toNatClampNeg

variable (inside : view.field.contains view.pointer.x view.pointer.y = true)

include inside

theorem pointer_toNat : view.pointer.x.toUInt64.toNat = view.column ∧
    view.pointer.y.toUInt64.toNat = view.row := by
  simp only [Playfield.contains, Bool.and_eq_true, decide_eq_true_eq] at inside
  exact ⟨Int64.toNat_toUInt64_of_le inside.1.1.1, Int64.toNat_toUInt64_of_le inside.1.1.2⟩

theorem cellStyle_colored {x y : ℕ} (elsewhere : ¬ (x = view.column ∧ y = view.row)) (cell : Cell) :
    (view.cellStyle x y cell).foreground ≠ some .black := by
  obtain ⟨column, row⟩ := pointer_toNat inside
  have missed : (y == view.row && x == view.column) = false := by
    simp only [Bool.and_eq_false_iff, beq_eq_false_iff_ne]
    exact not_and_or.mp fun here => elsewhere here.symm
  have foreground : (view.cellStyle x y cell).foreground =
      if cell.modified then some Theme.modified else (symbolStyle cell.symbol).foreground := by
    simp only [cellStyle, column, row, missed, Bool.false_eq_true, if_false]
    split_ifs <;> rfl
  rw [foreground]
  split
  · exact nofun
  · exact symbolStyle_colored cell.symbol

theorem pointer_cell : ∃ cell, view.field.get? view.column view.row = some cell := by
  rw [← Option.isSome_iff_exists, Raster.isSome_get?]
  simp only [Playfield.contains, Bool.and_eq_true, decide_eq_true_eq] at inside
  exact ⟨inside.1.2, inside.2⟩

theorem marked_pointer (cell : Cell) : view.Marked (view.cellGlyph view.column view.row cell) := by
  obtain ⟨column, row⟩ := pointer_toNat inside
  have style : view.cellStyle view.column view.row cell = Theme.badge view.pointerColor := by
    simp [cellStyle, column, row]
  rw [cellGlyph, style]
  exact ⟨rfl, rfl, rfl⟩

/-- Only the cell of the pointer is black, and it comes at its place behind the row number. -/
theorem content_black {scroll : FieldScroll} {width height x y : ℕ} {glyph : Glyph}
    (found : view.content scroll width height x y = some glyph)
    (black : glyph.style.foreground = some .black) :
    x = 1 + view.indent view.row + (view.column - scroll.column.toNat) ∧
      y = 1 + (view.row - scroll.row.toNat) ∧ x + 1 < width := by
  obtain ⟨index, columns, row, rows, rfl, rfl⟩ := content_place found
  rw [content_eq columns rows] at found
  obtain ⟨cells, present, placed⟩ := Option.bind_eq_some_iff.mp found
  rcases view.rowLine_cases placed with number | ⟨offset, visible, rfl, cell, inRow, rfl⟩
  · exact absurd black (gutter_colored number)
  obtain ⟨column, line⟩ := not_not.mp fun elsewhere => cellStyle_colored inside elsewhere cell black
  -- The row has a number, which is what the indentation counts.
  have inField : view.row < view.field.height :=
    line ▸ (Array.getElem?_eq_some_iff.mp present).1
  have indent : view.indent view.row = (view.gutter view.row).text.length := if_pos inField
  rw [indent, ← column, ← line]
  omega

end Marking

section Pane

def pane (view : FieldView) (isFocused : Bool) (scroll : FieldScroll) (width height : ℕ) :
    Screen × FieldScroll :=
  view.draw isFocused ⟨0, 0, width, height⟩ scroll (Screen.blank width height)

variable {view} (isFocused : Bool) (scroll : FieldScroll) {width height : ℕ}
  (inside : view.field.contains view.pointer.x view.pointer.y = true)
  (wide : 8 ≤ width) (tall : 3 ≤ height)

include inside wide tall

theorem pane_eq :
    let offsets := scroll.follow view.pointer.x.toUInt64 view.pointer.y.toUInt64
      (.ofNat (width - 7)) (.ofNat (height - 2))
    view.pane isFocused scroll width height =
      (((view.frame isFocused).draw (.blank width height) ⟨0, 0, width, height⟩).drawParagraph
        ⟨1, 1, width - 2, height - 2⟩ .left (view.lines offsets (width - 7) (height - 2)),
        offsets) := by
  have filled : view.field.isEmpty = false := by
    simp only [Playfield.contains, Bool.and_eq_true, decide_eq_true_eq] at inside
    simp only [Playfield.isEmpty, Bool.or_eq_false_iff, beq_eq_false_iff_ne]
    omega
  have columns : visibleColumns width = width - 7 := by
    simp only [visibleColumns, gutterWidth]
    omega
  have rows : visibleRows height = height - 2 := by
    simp only [visibleRows]
    omega
  simp only [pane, draw, filled, columns, rows, Bool.false_eq_true, if_false, Area.inner,
    Nat.zero_add]

theorem pane_follows (narrow : width < 2 ^ 63) (low : height < 2 ^ 63) :
    let offsets := (view.pane isFocused scroll width height).2
    (offsets.column.toNat ≤ view.column ∧ view.column < offsets.column.toNat + (width - 7)) ∧
      offsets.row.toNat ≤ view.row ∧ view.row < offsets.row.toNat + (height - 2) := by
  obtain ⟨column, row⟩ := pointer_toNat inside
  have columns : (UInt64.ofNat (width - 7)).toNat = width - 7 :=
    UInt64.toNat_ofNat_of_lt' (by rw [UInt64.size]; omega)
  have rows : (UInt64.ofNat (height - 2)).toNat = height - 2 :=
    UInt64.toNat_ofNat_of_lt' (by rw [UInt64.size]; omega)
  have left : view.column < 2 ^ 63 := Int64.toNatClampNeg_lt _
  have top : view.row < 2 ^ 63 := Int64.toNatClampNeg_lt _
  rw [pane_eq isFocused scroll inside wide tall, ← column, ← row]
  constructor
  · have shown := follow_visible scroll.column view.pointer.x.toUInt64 (.ofNat (width - 7))
      (by omega) (by omega)
    rwa [columns] at shown
  · have shown := follow_visible scroll.row view.pointer.y.toUInt64 (.ofNat (height - 2))
      (by omega) (by omega)
    rwa [rows] at shown

variable (printable : view.Printable)

include printable

theorem pane_overlaid : ∃ framed, Screen.Vacant ⟨1, 1, width - 2, height - 2⟩ framed ∧
    Screen.Overlaid (view.content (view.pane isFocused scroll width height).2 width height) framed
      (view.pane isFocused scroll width height).1 := by
  rw [pane_eq isFocused scroll inside wide tall]
  have colored : (view.frame isFocused).style.foreground ≠ some .black := by
    cases isFocused <;> exact nofun
  have blank := Screen.vacant_blank (Area.inner ⟨0, 0, width, height⟩) width height
  have vacant := blank.drawFrame colored
  rw [Area.inner, Nat.zero_add] at vacant
  refine ⟨_, vacant, ?_⟩
  exact Screen.overlaid_drawParagraph (by simp only; omega)
    (fun line member glyph drawn => printable.narrow member drawn) _

theorem pane_inner {index row : ℕ} (columns : index < width - 2) (rows : row < height - 2) :
    let shown := view.pane isFocused scroll width height
    shown.1.get? (1 + index) (1 + row) =
      some ((view.content shown.2 width height (1 + index) (1 + row)).getD .empty) := by
  intro shown
  obtain ⟨framed, vacant, overlaid⟩ := pane_overlaid isFocused scroll inside wide tall printable
  have onBlank : ((Screen.blank width height).symbol? (1 + index) (1 + row)).isSome := by
    rw [Screen.symbol?_blank, if_pos (by omega)]
    rfl
  have present : (shown.1.symbol? (1 + index) (1 + row)).isSome :=
    (view.drawn isFocused ⟨0, 0, width, height⟩ scroll).isSome onBlank
  rw [Screen.symbol?, overlaid, Option.isSome_map, Option.isSome_map] at present
  obtain ⟨under, below⟩ := Option.isSome_iff_exists.mp present
  -- Below the text the cell is still empty, so the glyph shows in its own style.
  obtain rfl := (vacant _ _ under below).2 (by simp only; omega) (by simp only; omega)
  rw [overlaid, below, Option.map_some]
  congr 1
  cases view.content shown.2 width height (1 + index) (1 + row) with
  | none => rfl
  | some glyph => exact glyph.over_empty

theorem pane_black {x y : ℕ} {glyph : Glyph}
    (found : (view.pane isFocused scroll width height).1.get? x y = some glyph)
    (black : glyph.style.foreground = some .black) :
    view.content (view.pane isFocused scroll width height).2 width height x y = some glyph := by
  obtain ⟨framed, vacant, overlaid⟩ := pane_overlaid isFocused scroll inside wide tall printable
  cases drawn : view.content (view.pane isFocused scroll width height).2 width height x y with
  | none =>
    rw [overlaid, drawn] at found
    obtain ⟨under, below, rfl⟩ := Option.map_eq_some_iff.mp found
    exact absurd black (vacant x y under below).1
  | some upper =>
    obtain ⟨index, columns, row, rows, rfl, rfl⟩ := content_place drawn
    rw [pane_inner isFocused scroll inside wide tall printable columns rows, drawn] at found
    exact found

theorem pane_cell {row column : ℕ} (rows : row < height - 2) (columns : column < width - 7) :
    let shown := view.pane isFocused scroll width height
    let x := shown.2.column.toNat + column
    let y := shown.2.row.toNat + row
    view.indent y + column < width - 2 →
      shown.1.get? (1 + view.indent y + column) (1 + row) =
        some (((view.field.get? x y).map (view.cellGlyph x y)).getD .empty) := by
  intro shown x y room
  calc shown.1.get? (1 + view.indent y + column) (1 + row)
    _ = some ((view.content shown.2 width height (1 + view.indent y + column) (1 + row)).getD
          .empty) := by
        rw [Nat.add_assoc]
        exact pane_inner isFocused scroll inside wide tall printable room rows
    _ = some (((view.field.get? x y).map (view.cellGlyph x y)).getD .empty) := by
        rw [content_cell columns rows room]

theorem pane_marked_iff (narrow : width < 2 ^ 63) (low : height < 2 ^ 63) (x y : ℕ) :
    let shown := view.pane isFocused scroll width height
    (∃ glyph, shown.1.get? x y = some glyph ∧ view.Marked glyph) ↔
      x = 1 + view.indent view.row + (view.column - shown.2.column.toNat) ∧
        y = 1 + (view.row - shown.2.row.toNat) ∧ x + 1 < width := by
  intro shown
  constructor
  · rintro ⟨glyph, found, black, _⟩
    exact content_black inside (pane_black isFocused scroll inside wide tall printable found black)
      black
  · rintro ⟨rfl, rfl, room⟩
    obtain ⟨⟨left, right⟩, top, bottom⟩ :=
      pane_follows isFocused scroll inside wide tall narrow low
    have column : shown.2.column.toNat + (view.column - shown.2.column.toNat) = view.column :=
      Nat.add_sub_of_le left
    have row : shown.2.row.toNat + (view.row - shown.2.row.toNat) = view.row :=
      Nat.add_sub_of_le top
    have drawn := pane_cell isFocused scroll inside wide tall printable
      (Nat.sub_lt_left_of_lt_add top bottom) (Nat.sub_lt_left_of_lt_add left right)
    have fits : view.indent view.row + (view.column - shown.2.column.toNat) < width - 2 := by omega
    simp only [shown, column, row] at drawn
    obtain ⟨cell, present⟩ := pointer_cell inside
    refine ⟨_, drawn fits, ?_⟩
    rw [present]
    exact marked_pointer inside cell

end Pane

/-- The pane shows a window of the playfield with the pointer in it, and marks the cell of the
pointer and no other one. A number of five digits or more is wider than its gutter: the cells behind
it move to the right, and those that do not fit are cut off, the marked one too. -/
theorem pane_shows_window (isFocused : Bool) (scroll : FieldScroll) {width height : ℕ}
    (printable : view.Printable)
    (inside : view.field.contains view.pointer.x view.pointer.y = true)
    (wide : 8 ≤ width) (tall : 3 ≤ height) (narrow : width < 2 ^ 63) (low : height < 2 ^ 63) :
    let shown := view.pane isFocused scroll width height
    let left := shown.2.column.toNat
    let top := shown.2.row.toNat
    (∀ row < height - 2, ∀ column < width - 7, view.indent (top + row) + column < width - 2 →
      shown.1.symbol? (1 + view.indent (top + row) + column) (1 + row) =
        some (((view.field.get? (left + column) (top + row)).map Cell.symbol).getD ' ')) ∧
    ((left ≤ view.column ∧ view.column < left + (width - 7)) ∧
      top ≤ view.row ∧ view.row < top + (height - 2)) ∧
    (∀ x y, (∃ glyph, shown.1.get? x y = some glyph ∧ view.Marked glyph) ↔
      x = 1 + view.indent view.row + (view.column - left) ∧ y = 1 + (view.row - top) ∧
        x + 1 < width) ∧
    ∀ y, view.indent y = gutterWidth ↔ y < 10000 ∨ view.field.height ≤ y := by
  intro shown left top
  refine ⟨fun row rows column columns room => ?_,
    pane_follows isFocused scroll inside wide tall narrow low,
    pane_marked_iff isFocused scroll inside wide tall printable narrow low, view.indent_eq_iff⟩
  have cell := pane_cell isFocused scroll inside wide tall printable rows columns room
  rw [Screen.symbol?, cell, Option.map_some, printable.symbol_cellGlyph]

/-- Scrolled too far down, the pane comes back to the pointer. -/
theorem pane_shows_window_of_corner :
    let view : FieldView := ⟨.build "12\n@x", ⟨1, 1, .right⟩, false, false⟩
    let shown := view.pane true ⟨5, 0⟩ 8 3
    view.Printable ∧ view.field.contains 1 1 = true ∧ shown.1.symbol? 6 1 = some 'x' ∧
      ∀ x y, (∃ glyph, shown.1.get? x y = some glyph ∧ view.Marked glyph) ↔ x = 6 ∧ y = 1 := by
  intro view shown
  have printable : view.Printable := by decide +kernel
  have inside : view.field.contains 1 1 = true := by decide +kernel
  have offsets : (view.pane true ⟨5, 0⟩ 8 3).2 = ⟨1, 1⟩ := by decide +kernel
  have indent : view.indent 1 = 5 := by decide +kernel
  have here : view.column = 1 ∧ view.row = 1 := by decide
  have cell : view.field.get? 1 1 = some ⟨'x', false⟩ := by decide +kernel
  obtain ⟨symbols, -, marks, -⟩ := view.pane_shows_window true ⟨5, 0⟩ printable inside
    (by decide : 8 ≤ 8) (by decide : 3 ≤ 3) (by decide) (by decide)
  refine ⟨printable, inside, ?_, fun x y => ?_⟩
  · have corner := symbols 0 (by decide) 0 (by decide)
    simpa [offsets, indent, cell] using corner
  · have mark := marks x y
    simp only [offsets, here.1, here.2, indent] at mark
    refine mark.trans ⟨fun place => ⟨place.1, place.2.1⟩, fun place => ⟨place.1, place.2, ?_⟩⟩
    omega

/-- The only cell of its row, and no room is left for it. -/
theorem pointer_cut_off :
    let view : FieldView := ⟨.replicate 1 10001 ⟨'@', false⟩, ⟨0, 10000, .right⟩, false, false⟩
    view.Printable ∧ view.field.contains 0 10000 = true ∧
      ∀ x y glyph, (view.pane true .start 8 3).1.get? x y = some glyph → ¬ view.Marked glyph := by
  intro view
  have printable : view.Printable := by
    intro row inRows cell inRow
    obtain rfl := Array.eq_of_mem_replicate inRows
    obtain rfl := Array.eq_of_mem_replicate inRow
    decide
  have inside : view.field.contains 0 10000 = true := by
    simp [view, Playfield.contains, Raster.replicate, Raster.height]
  have last : view.row = 10000 := by decide
  have height : view.field.height = 10001 := Array.size_replicate
  have indent : view.indent view.row = 6 := by
    rw [last, FieldView.indent, height, if_pos (by decide), length_number]
    decide
  refine ⟨printable, inside, fun x y glyph found marked => ?_⟩
  obtain ⟨place, -, room⟩ := (pane_marked_iff true .start inside (by decide) (by decide) printable
    (by decide) (by decide) x y).mp ⟨glyph, found, marked⟩
  omega

end FieldView

end Viewer

end Befunge
