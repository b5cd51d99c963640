import Befunge.Instruction
import Befunge.Playfield
import Befunge.Pointer
import Befunge.Screen.Frame
import Befunge.Screen.Line
import Befunge.Viewer.Scroll
import Befunge.Viewer.Theme

/-! The pane that shows the playfield around the pointer, with row numbers in a
gutter. -/
namespace Befunge.Viewer

structure FieldView where
  field : Playfield
  pointer : Pointer
  stringMode : Bool
  halted : Bool

namespace FieldView

def gutterWidth : Nat := 5

def symbolStyle (symbol : Char) : Style :=
  match Instruction.decode symbol with
  | .digit _ => .ink Theme.number
  | .go _ | .random | .horizontalIf | .verticalIf | .trampoline => (Style.ink Theme.steering).strong
  | .outputInteger | .outputCharacter => .ink Theme.printing
  | .put | .get => .ink Theme.storage
  | .stringMode => .ink Theme.quoted
  | .halt => (Style.ink Theme.failure).strong
  | .blank => if symbol = ' ' then .ink Theme.text else .ink Theme.comment
  | _ => .ink Theme.text

def pointerColor (view : FieldView) : Color :=
  if view.halted then Theme.failure else if view.stringMode then Theme.quoted else Theme.secondary

def cellStyle (view : FieldView) (x y : Nat) (cell : Cell) : Style :=
  let isCurrent := y == view.pointer.y.toUInt64.toNat
  if isCurrent && x == view.pointer.x.toUInt64.toNat then Theme.badge view.pointerColor
  else
    let style := symbolStyle cell.symbol
    let style :=
      if cell.modified then {style with foreground := some Theme.modified, underlined := true}
      else style
    if isCurrent then style.on Theme.band else style

/-- Control characters are shown as a dot. -/
def shown (symbol : Char) : Char := if Text.isControl symbol then '·' else symbol

def cellSpan (view : FieldView) (x y : Nat) (cell : Cell) : Span :=
  ⟨[shown cell.symbol], view.cellStyle x y cell⟩

def gutter (view : FieldView) (y : Nat) : Span where
  text := (Nat.toDigits 10 y).leftpad 4 ' ' ++ [' ']
  style :=
    if y == view.pointer.y.toUInt64.toNat then (Style.ink Theme.secondary).strong
    else .ink Theme.comment

def rowLine (view : FieldView) (column visible y : Nat) (row : Array Cell) : Line :=
  view.gutter y ::
    (page column visible row.toList.zipIdx).map fun (cell, x) => view.cellSpan x y cell

def lines (view : FieldView) (scroll : FieldScroll) (columns rows : Nat) : List Line :=
  (page scroll.row.toNat rows view.field.rows.toList.zipIdx).map fun (row, y) =>
    view.rowLine scroll.column.toNat columns y row

def visibleColumns (width : Nat) : Nat := max 1 (width - 2 - gutterWidth)

def frame (view : FieldView) (isFocused : Bool) : Frame where
  title := s!" Grid {view.field.width}x{view.field.height} ".toList
  style := Theme.border isFocused

/-- Draws the pane and scrolls it so that the pointer stays in sight. -/
def draw (view : FieldView) (isFocused : Bool) (area : Area) (scroll : FieldScroll)
    (screen : Screen) : Screen × FieldScroll :=
  let frame := view.frame isFocused
  if view.field.isEmpty then
    let screen := frame.draw (screen.fill area (.ink Theme.comment)) area
    (screen.drawParagraph area.inner .left [[.of "(empty program)" .plain]], scroll)
  else
    let rows := visibleRows area.height
    let columns := visibleColumns area.width
    let scroll := scroll.follow view.pointer.x.toUInt64 view.pointer.y.toUInt64
      (.ofNat columns) (.ofNat rows)
    ((frame.draw screen area).drawParagraph area.inner .left (view.lines scroll columns rows), scroll)

end FieldView

end Befunge.Viewer
