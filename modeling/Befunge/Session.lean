import Befunge.Directions
import Befunge.Timeline

/-! A program under execution together with its recorded past. Stepping extends
the record; navigation moves a cursor over it and restores the state found there;
stepping from the middle of the record replaces what came later. -/
namespace Befunge

structure Config where
  stepLimit : Nat := 1000000
  recordHistory : Bool := false
  memoryLimit : Nat := 268435456
  deriving DecidableEq

structure Session (σ : Type) where
  config : Config
  machine : Machine
  directions : σ
  timeline : Timeline
  position : Nat
  /-- Whether the machine is still in the state of the snapshot at `position`. -/
  atSnapshot : Bool
  truncated : Bool
  /-- The copy that the next snapshot shares. There is none once a put has landed. -/
  shared : Option Edition
  editions : Nat

namespace Session

variable {σ : Type}

def publish (session : Session σ) : Edition × Session σ :=
  match session.shared with
  | some edition => (edition, session)
  | none =>
    let edition : Edition := ⟨session.editions, session.machine.field⟩
    (edition, {session with shared := some edition, editions := session.editions + 1})

def capture (session : Session σ) : Session σ :=
  if !session.config.recordHistory || session.truncated then {session with atSnapshot := false}
  else
    let (edition, session) := session.publish
    let snapshot : Snapshot := ⟨{session.machine with field := edition.field}, edition.number⟩
    match session.timeline.record snapshot with
    | .ok timeline => {session with timeline, position := timeline.length - 1, atSnapshot := true}
    -- A state that the budget does not allow stops the recording.
    | .error _ => {session with truncated := true, atSnapshot := false}

def load (source : String) (config : Config) (directions : σ) : Session σ where
  config
  machine := .load source
  directions
  timeline := .empty config.memoryLimit
  position := 0
  atSnapshot := false
  truncated := false
  shared := none
  editions := 0

def new (source : String) (config : Config) (directions : σ) : Session σ :=
  (load source config directions).capture

def forgetLater (session : Session σ) : Session σ :=
  if session.atSnapshot && session.position + 1 < session.timeline.length then
    {session with timeline := session.timeline.truncate (session.position + 1), truncated := false}
  else session

/-- Steps the machine, drawing a heading if it asks for one. Otherwise no answer is
used, and the present heading stands in for it. A put that lands leaves the shared
copy to the snapshots that have it. -/
def proceed [DirectionSource σ] (session : Session σ) : Session σ :=
  let limit := session.config.stepLimit
  let shared := if session.machine.lands limit then none else session.shared
  if session.machine.asks limit then
    let (answer, directions) := DirectionSource.next session.directions
    {session with machine := session.machine.step limit answer, directions, shared}
  else
    {session with machine := session.machine.step limit session.machine.pointer.heading, shared}

def step [DirectionSource σ] (session : Session σ) : Session σ :=
  if session.machine.halt.isSome then session else session.forgetLater.proceed.capture

def runFor [DirectionSource σ] : Nat → Session σ → Session σ
  | 0, session => session
  | count + 1, session =>
    if session.machine.halt.isSome then session else runFor count session.step

def run [DirectionSource σ] (session : Session σ) : Session σ :=
  -- No more steps than these can be taken before the limit halts the machine.
  session.runFor (session.config.stepLimit - session.machine.steps + 1)

/-- Takes over the state of a snapshot. The playfield is left as it is if the
snapshot holds the shared copy, since no put has landed after that was made. -/
def adopt (session : Session σ) (snapshot : Snapshot) : Session σ :=
  if session.shared.any (·.number == snapshot.edition) then
    {session with machine := {snapshot.machine with field := session.machine.field}}
  else {session with machine := snapshot.machine, shared := some snapshot.copy}

def restore (session : Session σ) (index : Nat) : Except HistoryError (Session σ) :=
  match session.timeline.snapshots[index]? with
  | none => .error (.snapshotMissing index)
  | some snapshot => .ok {session.adopt snapshot with position := index, atSnapshot := true}

def stepBackward (session : Session σ) : Except HistoryError (Session σ) :=
  if session.timeline.isEmpty then .error .noSnapshots
  -- A machine that ran on past the record returns to its end.
  else if !session.atSnapshot then session.restore session.position
  else if session.position = 0 then .error .atStart
  else session.restore (session.position - 1)

def stepForward (session : Session σ) : Except HistoryError (Session σ) :=
  if session.timeline.isEmpty then .error .noSnapshots
  else if !session.atSnapshot || session.timeline.length ≤ session.position + 1 then
    .error (.atEnd session.position)
  else session.restore (session.position + 1)

def rewind (session : Session σ) : Except HistoryError (Session σ) :=
  if session.timeline.isEmpty then .error .noSnapshots else session.restore 0

def jumpToEnd (session : Session σ) : Except HistoryError (Session σ) :=
  if session.timeline.isEmpty then .error .noSnapshots
  else session.restore (session.timeline.length - 1)

def setHeading (session : Session σ) (heading : Heading) : Session σ :=
  {session with machine := session.machine.turn heading}

end Session

inductive Command where
  | step
  | run
  | stepBackward
  | stepForward
  | rewind
  | jumpToEnd
  | setHeading (heading : Heading)
  deriving DecidableEq

inductive Reply where
  | halted (halt : Option Halt)
  | printed (output : String)
  | done
  | failed (error : HistoryError)
  deriving DecidableEq

namespace Session

variable {σ : Type}

def navigated (session : Session σ) : Except HistoryError (Session σ) → Reply × Session σ
  | .ok next => (.done, next)
  | .error error => (.failed error, session)

def perform [DirectionSource σ] (session : Session σ) : Command → Reply × Session σ
  | .step => let next := session.step; (.halted next.machine.halt, next)
  | .run => let next := session.run; (.printed next.machine.output.text, next)
  | .stepBackward => session.navigated session.stepBackward
  | .stepForward => session.navigated session.stepForward
  | .rewind => session.navigated session.rewind
  | .jumpToEnd => session.navigated session.jumpToEnd
  | .setHeading heading => (.done, session.setHeading heading)

end Session

end Befunge
