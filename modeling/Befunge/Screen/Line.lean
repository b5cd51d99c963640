import Befunge.Screen.Basic

/-! Lines of styled text and the two ways of putting them on the screen: as a
paragraph, whose lines are cut symbol by symbol, and as a list, whose items are
laid out span by span. -/
namespace Befunge

structure Span where
  text : List Char
  style : Style
  deriving DecidableEq

namespace Span

def of (text : String) (style : Style) : Span := ⟨text.toList, style⟩

def glyphs (span : Span) : List Glyph := span.text.map (Glyph.mk · span.style)

end Span

abbrev Line := List Span

inductive Alignment where
  | left
  | right
  deriving DecidableEq

namespace Screen

def drawGlyphs (screen : Screen) (x y : Nat) : List Glyph → Screen
  | [] => screen
  -- The second cell of a wide symbol stays as it was.
  | glyph :: rest => drawGlyphs (screen.draw x y glyph) (x + Text.columns glyph.symbol) y rest

/-- The glyphs that fit into `room` columns out of `width`. Line feeds and symbols
wider than the whole width are passed over. -/
def fitting (width : Nat) : Nat → List Glyph → List Glyph
  | _, [] => []
  | room, glyph :: rest =>
    let columns := Text.columns glyph.symbol
    if glyph.symbol = '\n' ∨ width < columns then fitting width room rest
    else if room < columns then []
    else glyph :: fitting width (room - columns) rest

def drawLine (screen : Screen) (x y width : Nat) (alignment : Alignment) (line : Line) : Screen :=
  let glyphs := fitting width width (line.flatMap Span.glyphs)
  let start := match alignment with
    | .left => 0
    | .right => width - Text.totalColumns (glyphs.map Glyph.symbol)
  screen.drawGlyphs (x + start) y glyphs

def drawParagraph (screen : Screen) (area : Area) (alignment : Alignment) (lines : List Line) :
    Screen :=
  (lines.take area.height).zipIdx.foldl (fun screen (line, row) =>
    screen.drawLine area.x (area.y + row) area.width alignment line) screen

/-- Draws the text of a span until a symbol does not fit. The second cell of a wide
symbol is cleared. -/
def drawText (style : Style) (y : Nat) : Screen → Nat → Nat → List Char → Screen
  | screen, _, _, [] => screen
  | screen, x, room, symbol :: rest =>
    let columns := Text.columns symbol
    if room < columns then screen
    else
      let screen := screen.draw x y ⟨symbol, style⟩
      let screen := if columns = 2 then screen.clear (x + 1) y else screen
      drawText style y screen (x + columns) (room - columns) rest

def drawSpans (y : Nat) : Screen → Nat → Nat → Line → Screen
  | screen, _, _, [] => screen
  | screen, x, room, span :: rest =>
    if room = 0 then screen
    else
      let columns := Text.totalColumns span.text
      drawSpans y (drawText span.style y screen x room span.text) (x + columns) (room - columns) rest

def drawItems (screen : Screen) (area : Area) (items : List (Line × Style)) : Screen :=
  (items.take area.height).zipIdx.foldl (fun screen ((line, style), row) =>
    let y := area.y + row
    drawSpans y (screen.fill ⟨area.x, y, area.width, 1⟩ style) area.x area.width line) screen

end Screen

end Befunge
