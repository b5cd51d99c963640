import Befunge.Screen.Listing
import Befunge.Stack
import Befunge.Viewer.Scroll
import Befunge.Viewer.Theme

/-! The pane that lists the stack from the top, each value with its index and, if
it is the code of a printable character, that character. -/
namespace Befunge.Viewer.StackPane

def hint? (value : Int64) : Option (List Char) :=
  (Text.ofCode? value).bind fun symbol =>
    if symbol = ' ' ∨ (!Text.isControl symbol && !Text.isBlank symbol) then some ['\'', symbol, '\'']
    else none

def valueLine (depth index : Nat) (value : Int64) : Line :=
  let isTop := index + 1 == depth
  let number := Style.ink Theme.number
  [.of (if isTop then "▸ " else "  ") (.ink Theme.secondary),
    ⟨['['] ++ (Nat.toDigits 10 index).leftpad (Nat.toDigits 10 depth).length ' ' ++ [']', ' '],
      .ink Theme.comment⟩,
    .of (toString value.toInt) (if isTop then number.strong else number)] ++
  match hint? value with
  | some hint => [.of " " .plain, ⟨hint, .ink Theme.quoted⟩]
  | none => []

/-- The whole list, top first. An empty stack has one item that says so. -/
def items (stack : Stack) : List (Line × Style) :=
  if stack.isEmpty then [([.of "(empty)" .plain], .ink Theme.comment)]
  else stack.topFirst.zipIdx.map fun (value, below) =>
    (valueLine stack.depth (stack.depth - 1 - below) value, .plain)

def frame (stack : Stack) (isFocused : Bool) : Frame where
  title := s!" Stack ({stack.depth}) ".toList
  style := Theme.border isFocused

/-- What a pane of the given height shows, and where it is scrolled to then. -/
def listing (stack : Stack) (isFocused : Bool) (height : Nat) (scroll : StackScroll) :
    Listing × StackScroll :=
  let all := items stack
  let visible := visibleRows height
  let scroll := scroll.settle all.length visible
  (⟨frame stack isFocused, page scroll.offset visible all, false⟩, scroll)

def draw (stack : Stack) (isFocused : Bool) (area : Area) (scroll : StackScroll) (screen : Screen) :
    Screen × StackScroll :=
  let (listing, scroll) := listing stack isFocused area.height scroll
  (listing.draw area screen, scroll)

end Befunge.Viewer.StackPane
