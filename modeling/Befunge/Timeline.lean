import Befunge.Machine

/-! Recorded machine states under a memory budget. Neighbours that share one copy
of the playfield are charged for it once. -/
namespace Befunge

/-- A copy of the playfield for snapshots to share. The number tells copies apart
that hold the same. -/
structure Edition where
  number : Nat
  field : Playfield
  deriving DecidableEq

/-- A recorded state. Its playfield is that of the edition with the given number. -/
structure Snapshot where
  machine : Machine
  edition : Nat
  deriving DecidableEq

def Snapshot.copy (snapshot : Snapshot) : Edition := ⟨snapshot.edition, snapshot.machine.field⟩

inductive HistoryError where
  | atStart
  | atEnd (position : Nat)
  | noSnapshots
  | snapshotMissing (index : Nat)
  | budgetExceeded (usage budget : Nat)
  deriving DecidableEq

def HistoryError.message : HistoryError → String
  | atStart => "Already at the beginning of execution"
  | atEnd position => s!"No more snapshots available after step {position} (execution finished)"
  | noSnapshots => "No snapshots available"
  | snapshotMissing index => s!"Snapshot {index} not found in history"
  | budgetExceeded usage budget =>
    s!"Snapshot memory limit exceeded: {usage} bytes used, limit is {budget}"

structure Timeline where
  budget : Nat
  snapshots : Array Snapshot
  usage : Nat

namespace Timeline

def empty (budget : Nat) : Timeline := ⟨budget, #[], 0⟩

def length (timeline : Timeline) : Nat := timeline.snapshots.size

def isEmpty (timeline : Timeline) : Bool := timeline.snapshots.isEmpty

/-- Bytes a snapshot costs when it is recorded right after `previous`. -/
def charge (previous : Option Snapshot) (snapshot : Snapshot) : Nat :=
  snapshot.machine.footprint +
    if previous.any (·.edition == snapshot.edition) then 0 else snapshot.machine.field.footprint

def cost (timeline : Timeline) (snapshot : Snapshot) : Nat :=
  charge timeline.snapshots.back? snapshot

def affords (timeline : Timeline) (snapshot : Snapshot) : Bool :=
  timeline.usage + timeline.cost snapshot ≤ timeline.budget

def append (timeline : Timeline) (snapshot : Snapshot) : Timeline :=
  let cost := timeline.cost snapshot
  {timeline with snapshots := timeline.snapshots.push snapshot, usage := timeline.usage + cost}

def record (timeline : Timeline) (snapshot : Snapshot) : Except HistoryError Timeline :=
  if timeline.affords snapshot then .ok (timeline.append snapshot)
  else .error (.budgetExceeded timeline.usage timeline.budget)

def dropLast (timeline : Timeline) : Timeline :=
  match timeline.snapshots.back? with
  | none => timeline
  | some last =>
    let kept := timeline.snapshots.pop
    {timeline with snapshots := kept, usage := timeline.usage - charge kept.back? last}

def truncate (timeline : Timeline) (count : Nat) : Timeline :=
  Nat.repeat dropLast (timeline.length - count) timeline

end Timeline

end Befunge
