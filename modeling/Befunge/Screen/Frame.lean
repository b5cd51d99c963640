import Befunge.Screen.Basic

/-! Frames drawn around an area, with a title in the top side. -/
namespace Befunge

structure Frame where
  title : List Char
  style : Style
  deriving DecidableEq

namespace Frame

def drawSides (style : Style) (screen : Screen) (area : Area) : Screen :=
  let right := area.x + area.width - 1
  let bottom := area.y + area.height - 1
  -- Where two sides meet, the later one is seen.
  let screen := screen.drawDown area.x area.y area.height ⟨'│', style⟩
  let screen := screen.drawAcross area.x area.y area.width ⟨'─', style⟩
  let screen := screen.drawDown right area.y area.height ⟨'│', style⟩
  screen.drawAcross area.x bottom area.width ⟨'─', style⟩

def drawCorners (style : Style) (screen : Screen) (area : Area) : Screen :=
  let right := area.x + area.width - 1
  let bottom := area.y + area.height - 1
  let screen := screen.draw right bottom ⟨'┘', style⟩
  let screen := screen.draw right area.y ⟨'┐', style⟩
  let screen := screen.draw area.x bottom ⟨'└', style⟩
  screen.draw area.x area.y ⟨'┌', style⟩

/-- The title starts after the corner, is cut before the other one, and takes the
style of the side. -/
def drawTitle (title : List Char) (screen : Screen) (area : Area) : Screen :=
  (title.take (area.width - 2)).zipIdx.foldl (fun screen (symbol, column) =>
    screen.draw (area.x + 1 + column) area.y ⟨symbol, .plain⟩) screen

def draw (frame : Frame) (screen : Screen) (area : Area) : Screen :=
  if area.isEmpty then screen
  else drawTitle frame.title (drawCorners frame.style (drawSides frame.style screen area) area) area

end Frame

end Befunge
