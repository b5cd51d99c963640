import Befunge.Machine
import Befunge.Screen.Line
import Befunge.Viewer.Theme

/-! The status bar: position in the record, pointer and message on the left, keys
and badges on the right. -/
namespace Befunge.Viewer

structure Status where
  message : String
  position : Nat
  total : Nat
  pointer : Pointer
  symbol : Char
  stringMode : Bool
  halt : Option Halt
  truncated : Bool
  playing : Bool

namespace Status

def bar : Style := Style.plain.on Theme.band

def barText : Style := {bar with foreground := some Theme.text}

def barRule : Style := {bar with foreground := some Theme.comment}

def key : Style := (Style.ink .black).on Theme.comment

/-- A record that the budget cut short has a plus after its length. -/
def stepText (status : Status) : String :=
  let mark := if status.truncated then "+" else ""
  s!" Step {status.position + 1}/{status.total}{mark} "

def instruction (status : Status) : String :=
  if status.stringMode && status.symbol != '\x22' then "push char"
  else (Instruction.decode status.symbol).mnemonic

def pointerText (status : Status) : String :=
  let x := status.pointer.x.toInt
  let y := status.pointer.y.toInt
  let arrow := status.pointer.heading.arrow
  let heading := status.pointer.heading.name
  s!" ({x},{y}) {arrow} {heading} '{status.symbol}' {status.instruction} "

def left (status : Status) : Line :=
  [.of status.stepText
      (Theme.badge (if status.halt = some .stepLimit then Theme.failure else Theme.primary)),
    .of status.pointerText barText,
    .of " | " barRule,
    .of s!" {status.message} " barText]

def keys : Line :=
  [.of " ←/→ " key, .of " step " barText, .of "│" barRule, .of " " barText,
    .of " ⎵ " key, .of " play " barText, .of "│" barRule, .of " " barText,
    .of " ↵ / ⌫ " key, .of " end/start " barText, .of "│" barRule, .of " " barText,
    .of "q" key, .of " quit " barText]

def badge (text : String) (color : Color) : Line := [.of "│" barRule, .of text (Theme.badge color)]

def modeBadge (status : Status) : Line :=
  if status.stringMode then badge " \" STRING " Theme.quoted else []

/-- Playing is shown before a halt, and a halt before the start. -/
def stateBadge (status : Status) : Line :=
  if status.playing then badge " ▶ PLAYING " Theme.secondary
  else match status.halt with
    | some halt =>
      badge s!" END: {halt.message} " (if halt = .stepLimit then Theme.failure else Theme.success)
    | none => if status.position = 0 then badge " START " Theme.success else []

def right (status : Status) : Line := keys ++ status.modeBadge ++ status.stateBadge

def drawHalf (alignment : Alignment) (line : Line) (area : Area) (screen : Screen) : Screen :=
  (screen.fill area bar).drawParagraph area alignment [line]

/-- The left half takes the middle column if there is one. -/
def draw (status : Status) (area : Area) (screen : Screen) : Screen :=
  let (leftArea, rightArea) := area.splitColumns ((area.width + 1) / 2)
  drawHalf .right status.right rightArea (drawHalf .left status.left leftArea screen)

end Status

end Befunge.Viewer
