/-! Scroll offsets of the panes and the parts of longer lists that they select. -/
namespace Befunge.Viewer

/-- The largest offset. It stands for the end of whatever is shown. -/
def lastOffset : Nat := UInt64.size - 1

def scrollDown (offset : Nat) : Nat := min (offset + 1) lastOffset

def scrollUp (offset : Nat) : Nat := offset - 1

def visibleRows (height : Nat) : Nat := max 1 (height - 2)

def clamp (offset total visible : Nat) : Nat :=
  if visible < total then min offset (total - visible) else 0

def page {α : Type} (offset visible : Nat) (items : List α) : List α :=
  (items.drop offset).take visible

/-- Moves an offset just far enough for `position` to be among the `visible` places
from it on. -/
def follow (offset position visible : UInt64) : UInt64 :=
  if position < offset then position
  else if offset + visible ≤ position then position + 1 - visible
  else offset

structure FieldScroll where
  row : UInt64
  column : UInt64
  deriving DecidableEq

namespace FieldScroll

def start : FieldScroll := ⟨0, 0⟩

def follow (scroll : FieldScroll) (x y columns rows : UInt64) : FieldScroll :=
  ⟨Viewer.follow scroll.row y rows, Viewer.follow scroll.column x columns⟩

def up (scroll : FieldScroll) : FieldScroll :=
  if scroll.row = 0 then scroll else {scroll with row := scroll.row - 1}

def down (scroll : FieldScroll) : FieldScroll :=
  if scroll.row + 1 = 0 then scroll else {scroll with row := scroll.row + 1}

end FieldScroll

structure StackScroll where
  offset : Nat
  itemCount : Nat
  deriving DecidableEq

namespace StackScroll

def start : StackScroll := ⟨0, 0⟩

/-- A list that has grown is shown from its top again. -/
def settle (scroll : StackScroll) (total visible : Nat) : StackScroll where
  offset := clamp (if scroll.itemCount < total then 0 else scroll.offset) total visible
  itemCount := total

end StackScroll

end Befunge.Viewer
