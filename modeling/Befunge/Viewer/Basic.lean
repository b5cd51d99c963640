import Befunge.Session
import Befunge.Viewer.FieldPane
import Befunge.Viewer.OutputPane
import Befunge.Viewer.StackPane
import Befunge.Viewer.StatusBar

/-! The viewer of a recorded run: what its keys do and how it draws itself. Time
enters only as the milliseconds since an earlier event. -/
namespace Befunge

namespace Viewer

inductive Pane where
  | field
  | stack
  | output
  deriving DecidableEq

def Pane.next : Pane → Pane
  | field => output
  | output => stack
  | stack => field

def Pane.previous : Pane → Pane
  | field => stack
  | stack => output
  | output => field

inductive Key where
  | character (symbol : Char)
  | tab
  | backTab
  | left
  | right
  | up
  | down
  | enter
  | backspace
  | other
  deriving DecidableEq

def playInterval : Nat := 150

/-- A space that follows another within this time is a repetition. -/
def spaceInterval : Nat := 200

end Viewer

structure Viewer (σ : Type) where
  session : Session σ
  focus : Viewer.Pane
  fieldScroll : Viewer.FieldScroll
  stackScroll : Viewer.StackScroll
  outputScroll : Nat
  quit : Bool
  message : String
  playing : Bool

namespace Viewer

variable {σ : Type}

def new (session : Session σ) : Viewer σ where
  session
  focus := .field
  fieldScroll := .start
  stackScroll := .start
  outputScroll := 0
  quit := false
  message := "Ready!"
  playing := false

def ofRun [DirectionSource σ] (session : Session σ) : Viewer σ :=
  let finished := session.run
  match finished.rewind with
  | .ok rewound => new rewound
  | .error _ => new finished

def stop (viewer : Viewer σ) : Viewer σ := {viewer with playing := false}

def note (viewer : Viewer σ) (message : String) : Viewer σ := {viewer with message}

def showEnd (viewer : Viewer σ) : Viewer σ := {viewer with outputScroll := lastOffset}

/-- Moves one snapshot. Only a move that succeeds turns to the end of the output. -/
def move (viewer : Viewer σ) (success failure : String)
    (result : Except HistoryError (Session σ)) : Viewer σ :=
  match result with
  | .ok session => ({viewer with session}.note success).showEnd
  | .error error => viewer.note s!"{failure}: {error.message}"

def jump (viewer : Viewer σ) (success failure : String)
    (result : Except HistoryError (Session σ)) : Viewer σ :=
  -- The output turns to its end even if the move fails.
  (viewer.move success failure result).showEnd

def forward : Nat → Session σ → Nat × Session σ
  | 0, session => (0, session)
  | count + 1, session =>
    match session.stepForward with
    | .ok next =>
      let (taken, last) := forward count next
      (taken + 1, last)
    | .error _ => (0, session)

def skip (viewer : Viewer σ) (count : Nat) : Viewer σ :=
  let (taken, session) := forward count viewer.session
  ({viewer with session}.note s!"Stepped forward {taken} step(s)").showEnd

def scrollFocused (viewer : Viewer σ) (field : FieldScroll → FieldScroll) (list : Nat → Nat) :
    Viewer σ :=
  match viewer.focus with
  | .field => {viewer with fieldScroll := field viewer.fieldScroll}
  | .stack =>
    {viewer with stackScroll := {viewer.stackScroll with offset := list viewer.stackScroll.offset}}
  | .output => {viewer with outputScroll := list viewer.outputScroll}

def togglePlay (viewer : Viewer σ) : Viewer σ :=
  {viewer with
    playing := !viewer.playing
    message := if viewer.playing then "Paused" else "Playing..."}

def pressCharacter (viewer : Viewer σ) (symbol : Char) (sinceSpace : Nat) : Viewer σ :=
  if symbol = 'q' ∨ symbol = 'Q' then {viewer with quit := true}
  else if '1' ≤ symbol ∧ symbol ≤ '9' then viewer.stop.skip (symbol.toNat - '0'.toNat)
  else if symbol = ' ' ∧ spaceInterval ≤ sinceSpace then viewer.togglePlay
  else viewer

def press (viewer : Viewer σ) (key : Key) (sinceSpace : Nat) : Viewer σ :=
  match key with
  | .character symbol => viewer.pressCharacter symbol sinceSpace
  | .tab => {viewer with focus := viewer.focus.next}
  | .backTab => {viewer with focus := viewer.focus.previous}
  | .left =>
    viewer.stop.move "Stepped backward" "Cannot step backward" viewer.session.stepBackward
  | .right => viewer.stop.move "Stepped forward" "Cannot step forward" viewer.session.stepForward
  | .up => viewer.scrollFocused .up scrollUp
  | .down => viewer.scrollFocused .down scrollDown
  | .enter => viewer.stop.jump "Jumped to end" "Cannot jump to end" viewer.session.jumpToEnd
  | .backspace => viewer.stop.jump "Jumped to start" "Cannot jump to start" viewer.session.rewind
  | .other => viewer

def tick (viewer : Viewer σ) (sinceStep : Nat) : Viewer σ :=
  if viewer.playing ∧ playInterval ≤ sinceStep then
    match viewer.session.stepForward with
    | .ok session => ({viewer with session}.note "Playing...").showEnd
    | .error _ => viewer.stop.note "Playback complete"
  else viewer

def sevenTenths (length : Nat) : Nat := (7 * length + 5) / 10

structure Layout where
  field : Area
  output : Area
  stack : Area
  status : Area

/-- The status bar takes the last row. Playfield and output share the left column. -/
def layout (width height : Nat) : Layout :=
  let (panes, status) := Area.splitRows ⟨0, 0, width, height⟩ (height - 1)
  let (column, stack) := panes.splitColumns (sevenTenths panes.width)
  let (field, output) := column.splitRows (sevenTenths column.height)
  ⟨field, output, stack, status⟩

def fieldView (viewer : Viewer σ) : FieldView where
  field := viewer.session.machine.field
  pointer := viewer.session.machine.pointer
  stringMode := viewer.session.machine.stringMode
  halted := viewer.session.machine.halt.isSome

def status (viewer : Viewer σ) : Status where
  message := viewer.message
  position := viewer.session.position
  total := viewer.session.timeline.length
  pointer := viewer.session.machine.pointer
  symbol := viewer.session.machine.symbol
  stringMode := viewer.session.machine.stringMode
  halt := viewer.session.machine.halt
  truncated := viewer.session.truncated
  playing := viewer.playing

def draw (viewer : Viewer σ) (width height : Nat) : Screen × Viewer σ :=
  let layout := layout width height
  let machine := viewer.session.machine
  let (screen, fieldScroll) := viewer.fieldView.draw (viewer.focus = .field) layout.field
    viewer.fieldScroll (.blank width height)
  let (screen, outputScroll) := OutputPane.draw machine.output (viewer.focus = .output)
    layout.output viewer.outputScroll screen
  let (screen, stackScroll) := StackPane.draw machine.stack (viewer.focus = .stack) layout.stack
    viewer.stackScroll screen
  (viewer.status.draw layout.status screen, {viewer with fieldScroll, outputScroll, stackScroll})

/-- One pass of the main loop up to the wait for a key: draw, then, unless the user
has quit, play on. -/
def pass (viewer : Viewer σ) (width height sinceStep : Nat) : Viewer σ :=
  let drawn := (viewer.draw width height).2
  if drawn.quit then drawn else drawn.tick sinceStep

end Viewer

end Befunge
