import Befunge.Screen.Basic

/-! Colours and styles of the viewer. -/
namespace Befunge.Viewer.Theme

def text : Color := .rgb 205 214 244

def primary : Color := .rgb 137 180 250

/-- Pointer cell and top of the stack. -/
def secondary : Color := .rgb 250 179 135

def comment : Color := .rgb 108 112 134

def success : Color := .rgb 166 227 161

def failure : Color := .rgb 243 139 168

def steering : Color := primary

def quoted : Color := success

def number : Color := secondary

def focused : Color := .rgb 249 226 175

def unfocused : Color := comment

/-- Pointer row and status bar. -/
def band : Color := .rgb 50 50 70

def printing : Color := .rgb 249 226 175

def storage : Color := .rgb 148 226 213

def modified : Color := .rgb 245 194 231

def border (isFocused : Bool) : Style :=
  if isFocused then (Style.ink focused).strong else .ink unfocused

/-- Black bold text on a coloured ground. -/
def badge (color : Color) : Style := ((Style.ink .black).on color).strong

end Befunge.Viewer.Theme
