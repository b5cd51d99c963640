import Befunge.Raster
import Befunge.Text.Symbol

/-! A text screen as a rectangle of styled symbols. -/
namespace Befunge

inductive Color where
  | black
  | rgb (red green blue : UInt8)
  deriving DecidableEq

structure Style where
  foreground : Option Color := none
  background : Option Color := none
  bold : Bool := false
  underlined : Bool := false
  deriving DecidableEq

namespace Style

def plain : Style := {}

def ink (color : Color) : Style := {foreground := some color}

def on (style : Style) (color : Color) : Style := {style with background := some color}

def strong (style : Style) : Style := {style with bold := true}

/-- Lays one style over another. A colour that the upper style leaves open stays
as it was, and attributes add up. -/
def atop (upper lower : Style) : Style where
  foreground := upper.foreground <|> lower.foreground
  background := upper.background <|> lower.background
  bold := upper.bold || lower.bold
  underlined := upper.underlined || lower.underlined

end Style

/-- A symbol with its style, on the screen or about to be drawn. Every symbol has a cell of its own,
also one that would be joined to the symbol before it. -/
structure Glyph where
  symbol : Char
  style : Style
  deriving DecidableEq

def Glyph.empty : Glyph := ⟨' ', .plain⟩

abbrev Screen := Raster Glyph

structure Area where
  x : Nat
  y : Nat
  width : Nat
  height : Nat
  deriving DecidableEq

namespace Area

def isEmpty (area : Area) : Bool := area.width == 0 || area.height == 0

def inner (area : Area) : Area := ⟨area.x + 1, area.y + 1, area.width - 2, area.height - 2⟩

def indented (area : Area) : Area := {area with x := area.x + 1, width := area.width - 1}

def splitColumns (area : Area) (width : Nat) : Area × Area :=
  ({area with width}, {area with x := area.x + width, width := area.width - width})

def splitRows (area : Area) (height : Nat) : Area × Area :=
  ({area with height}, {area with y := area.y + height, height := area.height - height})

end Area

namespace Screen

def blank (width height : Nat) : Screen := .replicate width height .empty

def whole (screen : Screen) : Area := ⟨0, 0, screen.width, screen.height⟩

def restyle (screen : Screen) (x y : Nat) (style : Style) : Screen :=
  screen.modify x y fun glyph => {glyph with style := style.atop glyph.style}

/-- Replaces the symbol of one cell and lays a style over the cell's own. -/
def draw (screen : Screen) (x y : Nat) (glyph : Glyph) : Screen :=
  screen.modify x y fun under => ⟨glyph.symbol, glyph.style.atop under.style⟩

def clear (screen : Screen) (x y : Nat) : Screen := screen.modify x y fun _ => .empty

def fill (screen : Screen) (area : Area) (style : Style) : Screen :=
  (List.range area.height).foldl (fun screen row =>
    (List.range area.width).foldl (fun screen column =>
      screen.restyle (area.x + column) (area.y + row) style) screen) screen

def drawAcross (screen : Screen) (x y count : Nat) (glyph : Glyph) : Screen :=
  (List.range count).foldl (fun screen column => screen.draw (x + column) y glyph) screen

def drawDown (screen : Screen) (x y count : Nat) (glyph : Glyph) : Screen :=
  (List.range count).foldl (fun screen row => screen.draw x (y + row) glyph) screen

end Screen

end Befunge
