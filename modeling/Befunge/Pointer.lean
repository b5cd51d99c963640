import Befunge.Heading

/-! The instruction pointer. It moves one cell at a time along its heading and
leaves one edge of the playfield to enter at the opposite one. -/
namespace Befunge

/-- Folds a coordinate that was moved by one cell back onto an axis of the given
extent. On an axis without cells every coordinate becomes zero. -/
def wrap (coordinate : Int64) (extent : Nat) : Int64 :=
  if extent = 0 then 0
  else if coordinate < 0 then Int64.ofNat extent - 1
  else if Int64.ofNat extent ≤ coordinate then 0
  else coordinate

structure Pointer where
  x : Int64
  y : Int64
  heading : Heading
  deriving DecidableEq

namespace Pointer

def start : Pointer := ⟨0, 0, .right⟩

def turn (pointer : Pointer) (heading : Heading) : Pointer := {pointer with heading}

def advance (pointer : Pointer) (width height : Nat) : Pointer :=
  {pointer with
    x := wrap (pointer.x + pointer.heading.offset.1) width
    y := wrap (pointer.y + pointer.heading.offset.2) height}

end Pointer

end Befunge
