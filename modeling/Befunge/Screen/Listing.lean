import Befunge.Screen.Frame
import Befunge.Screen.Line

/-! Framed lists: what a pane with rows of text hands to the screen. -/
namespace Befunge

structure Listing where
  frame : Frame
  rows : List (Line × Style)
  /-- Whether the rows keep one column away from the left side of the frame. -/
  indented : Bool
  deriving DecidableEq

namespace Listing

def room (listing : Listing) (area : Area) : Area :=
  if listing.indented then area.inner.indented else area.inner

def draw (listing : Listing) (area : Area) (screen : Screen) : Screen :=
  (listing.frame.draw screen area).drawItems (listing.room area) listing.rows

end Listing

end Befunge
