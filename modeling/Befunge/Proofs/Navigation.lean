import Befunge.Proofs.Record

/-! Moves of the cursor over the record. Whether a move is refused and where it leads
depends on the cursor and on the length of the record alone. A move that succeeds
changes nothing but the cursor and the state that is shown, so moves that lead back
undo each other. -/
namespace Befunge.Session

variable {σ : Type}

def visit (session : Session σ) (index : Nat) (snapshot : Snapshot) : Session σ :=
  {session with
    machine := snapshot.machine
    shared := some snapshot.copy
    position := index
    atSnapshot := true}

@[simp]
theorem visit_visit (session : Session σ) (first second : Nat) (before next : Snapshot) :
    (session.visit first before).visit second next = session.visit second next := rfl

/-- Why a move is refused, if it is. -/
def refusal (session : Session σ) (command : Command) : Option HistoryError :=
  if session.timeline.length = 0 then some .noSnapshots
  else match command with
    | .stepBackward =>
      if session.atSnapshot = true ∧ session.position = 0 then some .atStart else none
    | .stepForward =>
      if session.atSnapshot = false ∨ session.position + 1 = session.timeline.length then
        some (.atEnd session.position)
      else none
    | _ => none

/-- The place in the record that a move leads to. From past the record, a move back leads
to its last snapshot. -/
def destination (session : Session σ) : Command → Nat
  | .stepBackward => if session.atSnapshot = true then session.position - 1 else session.position
  | .stepForward => session.position + 1
  | .rewind => 0
  | .jumpToEnd => session.timeline.length - 1
  | .step | .run | .setHeading _ => session.position

theorem refusal_of_empty {session : Session σ} (empty : session.timeline.length = 0)
    (command : Command) : session.refusal command = some .noSnapshots := by
  simp [refusal, empty]

theorem refusal_eq_noSnapshots (session : Session σ) (command : Command) :
    session.refusal command = some .noSnapshots ↔ session.timeline.length = 0 := by
  refine ⟨?_, fun empty => refusal_of_empty empty command⟩
  intro refused
  by_contra filled
  cases command <;> simp [refusal, filled] at refused

theorem refusal_cases {session : Session σ} {command : Command} {error : HistoryError}
    (refused : session.refusal command = some error) :
    error = .noSnapshots ∨ command = .stepBackward ∧ error = .atStart ∨
      command = .stepForward ∧ error = .atEnd session.position := by
  by_cases empty : session.timeline.length = 0
  · rw [refusal_of_empty empty] at refused
    exact .inl (Option.some.inj refused).symm
  · cases command <;> simp_all [refusal]

section Moves

variable [DirectionSource σ] {setting : Setting} {session : Session σ} {command : Command}

theorem restore_eq_visit (kept : session.Kept setting) {index : Nat} {snapshot : Snapshot}
    (found : session.timeline.snapshots.toList[index]? = some snapshot) :
    session.restore index = .ok (session.visit index snapshot) := by
  have present : session.timeline.snapshots[index]? = some snapshot := by simpa using found
  simp only [restore, present, adopt_eq kept (List.mem_of_getElem? found)]
  rfl

theorem visit_coherent (coherent : session.Coherent setting) {index : Nat} {snapshot : Snapshot}
    (found : session.timeline.snapshots.toList[index]? = some snapshot) :
    (session.visit index snapshot).Coherent setting :=
  restore_coherent coherent (restore_eq_visit coherent.toKept found)

theorem destination_lt (coherent : session.Coherent setting)
    (navigates : command.navigates = true) (accepted : session.refusal command = none) :
    session.destination command < session.timeline.length := by
  have filled : 0 < session.timeline.length := by
    by_contra empty
    rw [refusal_of_empty (by omega)] at accepted
    cases accepted
  have cursor := coherent.cursor filled
  cases command with
  | stepBackward =>
    simp only [destination]
    split <;> omega
  | stepForward =>
    have further : session.position + 1 ≠ session.timeline.length := by
      intro last
      simp [refusal, last, filled.ne'] at accepted
    simp only [destination]
    omega
  | rewind => exact filled
  | jumpToEnd => exact Nat.sub_one_lt filled.ne'
  | step | run | setHeading => cases navigates

theorem perform_eq_move (coherent : session.Coherent setting)
    (navigates : command.navigates = true) :
    session.perform command = session.navigated (match session.refusal command with
      | some error => .error error
      | none => session.restore (session.destination command)) := by
  have nothing : session.timeline.isEmpty = true ↔ session.timeline.length = 0 := by
    simp [Timeline.isEmpty, Timeline.length]
  by_cases empty : session.timeline.length = 0
  · rw [refusal_of_empty empty]
    cases command with
    | stepBackward | stepForward | rewind | jumpToEnd =>
      simp only [perform, stepBackward, stepForward, rewind, jumpToEnd, nothing.mpr empty, if_true]
    | step | run | setHeading => cases navigates
  · -- The cursor is never past the end, so the last snapshot is where it can go no further.
    have cursor := coherent.cursor (Nat.pos_of_ne_zero empty)
    cases command with
    | stepBackward =>
      cases attached : session.atSnapshot <;> by_cases first : session.position = 0 <;>
        simp [perform, stepBackward, refusal, destination, nothing, empty, attached, first]
    | stepForward =>
      have last : session.timeline.length ≤ session.position + 1 ↔
          session.position + 1 = session.timeline.length := by omega
      by_cases ended : session.atSnapshot = false ∨ session.position + 1 = session.timeline.length <;>
        simp [perform, stepForward, refusal, destination, nothing, empty, last, ended]
    | rewind | jumpToEnd =>
      simp [perform, rewind, jumpToEnd, refusal, destination, nothing, empty]
    | step | run | setHeading => cases navigates

theorem perform_of_refusal (coherent : session.Coherent setting)
    (navigates : command.navigates = true) {error : HistoryError}
    (refused : session.refusal command = some error) :
    session.perform command = (.failed error, session) := by
  rw [perform_eq_move coherent navigates, refused]
  rfl

theorem perform_of_accepted (coherent : session.Coherent setting)
    (navigates : command.navigates = true) (accepted : session.refusal command = none)
    {snapshot : Snapshot}
    (found : session.timeline.snapshots.toList[session.destination command]? = some snapshot) :
    session.perform command =
      (.done, session.visit (session.destination command) snapshot) := by
  rw [perform_eq_move coherent navigates, accepted]
  simp only [restore_eq_visit coherent.toKept found]
  rfl

theorem failed_iff_refusal (coherent : session.Coherent setting)
    (navigates : command.navigates = true) {error : HistoryError} :
    (session.perform command).1 = .failed error ↔ session.refusal command = some error := by
  cases refused : session.refusal command with
  | some other => simp [perform_of_refusal coherent navigates refused]
  | none =>
    have there := List.getElem?_eq_getElem (destination_lt coherent navigates refused)
    simp [perform_of_accepted coherent navigates refused there]

theorem done_iff_accepted (coherent : session.Coherent setting)
    (navigates : command.navigates = true) :
    (session.perform command).1 = .done ↔ session.refusal command = none := by
  cases refused : session.refusal command with
  | some error => simp [perform_of_refusal coherent navigates refused]
  | none =>
    have there := List.getElem?_eq_getElem (destination_lt coherent navigates refused)
    simp [perform_of_accepted coherent navigates refused there]

end Moves

section Undoing

variable [DirectionSource σ] {setting : Setting} {session : Session σ}

theorem visit_present (coherent : session.Coherent setting) (pinned : session.Pinned)
    (attached : session.atSnapshot = true) : ∃ snapshot,
    session.timeline.snapshots.toList[session.position]? = some snapshot ∧
      session.visit session.position snapshot = session := by
  obtain ⟨snapshot, machine⟩ := pinned attached
  obtain ⟨same, _, found, _, _, shared⟩ := coherent.present attached
  obtain rfl : snapshot = same := Option.some.inj (machine.1.symm.trans found)
  refine ⟨snapshot, found, ?_⟩
  rw [visit, ← machine.2, ← shared, ← attached]

omit [DirectionSource σ] in
theorem forgetLater_of_attached (attached : session.atSnapshot = true) :
    session.forgetLater.position = session.position ∧
      session.forgetLater.timeline.snapshots.toList =
        session.timeline.snapshots.toList.take (session.position + 1) := by
  unfold forgetLater
  split
  · exact ⟨rfl, Timeline.truncate_snapshots ..⟩
  · rename_i last
    refine ⟨rfl, (List.take_of_length_le ?_).symm⟩
    simp only [attached, Bool.true_and, decide_eq_true_eq] at last
    exact Nat.le_of_not_lt last

/-- A step from a snapshot leaves the record up to there in place, and the cursor goes on
to the new state if it was recorded. -/
theorem step_cursor (running : session.machine.halt = none)
    (attached : session.atSnapshot = true) {snapshot : Snapshot}
    (found : session.timeline.snapshots.toList[session.position]? = some snapshot) :
    session.step.timeline.snapshots.toList[session.position]? = some snapshot ∧
      session.step.position =
        if session.step.atSnapshot then session.position + 1 else session.position := by
  obtain ⟨position, snapshots⟩ := forgetLater_of_attached attached
  have inside := (List.getElem?_eq_some_iff.mp found).1
  have kept : session.forgetLater.timeline.snapshots.toList[session.position]? = some snapshot := by
    rw [snapshots, List.getElem?_take_of_lt (Nat.lt_succ_self _), found]
  have length : session.forgetLater.timeline.length = session.position + 1 := by
    rw [Timeline.length_eq, snapshots, List.length_take, Nat.min_eq_left inside]
  obtain ⟨_, _, proceeded, _⟩ := session.forgetLater.proceed_eq
  rw [step_of_running running]
  have captured := session.forgetLater.proceed.capture_captured
  generalize session.forgetLater.proceed.capture = next at captured
  rw [proceeded] at captured
  cases captured with
  | skipped | refused => exact ⟨kept, position⟩
  | recorded edition =>
    refine ⟨?_, length⟩
    rw [Timeline.append_snapshots, List.getElem?_append_left, kept]
    exact (List.getElem?_eq_some_iff.mp kept).1

theorem step_backward (coherent : session.Coherent setting) (pinned : session.Pinned)
    (attached : session.atSnapshot = true) (running : session.machine.halt = none) :
    ∃ back, session.step.perform .stepBackward = (.done, back) ∧
      back.machine = session.machine ∧ back.position = session.position := by
  obtain ⟨snapshot, found, here⟩ := visit_present coherent pinned attached
  obtain ⟨kept, position⟩ := step_cursor running attached found
  have filled : session.step.timeline.length ≠ 0 :=
    Nat.ne_zero_of_lt (List.getElem?_eq_some_iff.mp kept).1
  have destination : session.step.destination .stepBackward = session.position := by
    simp only [Session.destination, position]
    split <;> rfl
  have accepted : session.step.refusal .stepBackward = none := by
    cases recorded : session.step.atSnapshot <;>
      simp [refusal, filled, recorded, position]
  have restored : snapshot.machine = session.machine := congrArg Session.machine here
  rw [← destination] at kept
  exact ⟨_, perform_of_accepted (step_coherent coherent running) rfl accepted kept,
    restored, destination⟩

theorem move_return (coherent : session.Coherent setting) (pinned : session.Pinned)
    (attached : session.atSnapshot = true) {away home : Command}
    (navigates : away.navigates = true) (returns : home.navigates = true)
    (accepted : session.refusal away = none)
    (welcome : ∀ snapshot, (session.visit (session.destination away) snapshot).refusal home = none)
    (back : ∀ snapshot, (session.visit (session.destination away) snapshot).destination home =
      session.position) :
    ∃ other, session.perform away = (.done, other) ∧ other.perform home = (.done, session) := by
  obtain ⟨snapshot, found, here⟩ := visit_present coherent pinned attached
  have there := List.getElem?_eq_getElem (destination_lt coherent navigates accepted)
  refine ⟨_, perform_of_accepted coherent navigates accepted there, ?_⟩
  rw [perform_of_accepted (visit_coherent coherent there) returns (welcome _)
    (by rw [back]; exact found), back, visit_visit, here]

theorem backward_forward (coherent : session.Coherent setting) (pinned : session.Pinned)
    (attached : session.atSnapshot = true) (later : 0 < session.position) :
    ∃ back, session.perform .stepBackward = (.done, back) ∧
      back.perform .stepForward = (.done, session) := by
  obtain ⟨_, found, _⟩ := visit_present coherent pinned attached
  have inside : session.position < session.timeline.length := (List.getElem?_eq_some_iff.mp found).1
  have filled : session.timeline.length ≠ 0 := Nat.ne_zero_of_lt inside
  have again : session.position - 1 + 1 = session.position := Nat.sub_add_cancel later
  apply move_return coherent pinned attached rfl rfl
  · simp [refusal, filled, later.ne']
  · simp [refusal, destination, visit, filled, attached, again, inside.ne]
  · simp [destination, visit, attached, again]

theorem forward_backward (coherent : session.Coherent setting) (pinned : session.Pinned)
    (attached : session.atSnapshot = true)
    (further : session.position + 1 < session.timeline.length) :
    ∃ ahead, session.perform .stepForward = (.done, ahead) ∧
      ahead.perform .stepBackward = (.done, session) := by
  have filled : session.timeline.length ≠ 0 := Nat.ne_zero_of_lt further
  apply move_return coherent pinned attached rfl rfl
  · simp [refusal, filled, attached, further.ne]
  · simp [refusal, destination, visit, filled]
  · simp [destination, visit]

end Undoing

variable [DirectionSource σ]

theorem new_after_pinned (source : String) (config : Config) (directions : σ)
    {commands : List Command}
    (settled : (new source config directions).steered false commands = false) :
    ((new source config directions).after commands).Pinned := by
  have due : (load source config directions).Due (setting source config directions commands) :=
    load_due directions fun number => ⟨number, rfl⟩
  exact after_pinned due.capture (fun _ member => member) (fun _ => due.pinned) settled

/-- At a snapshot and with a settled heading, a step is undone by moving back, recorded or
not, and a move by one snapshot is undone as a whole by the opposite move. -/
theorem undo_and_redo_exact (source : String) (config : Config) (directions : σ)
    (commands : List Command)
    (attached : ((Session.new source config directions).after commands).atSnapshot = true)
    (settled : (Session.new source config directions).steered false commands = false) :
    let session := (Session.new source config directions).after commands
    (session.machine.halt = none →
      ∃ back, (session.perform .step).2.perform .stepBackward = (.done, back) ∧
        back.machine = session.machine ∧ back.position = session.position) ∧
    (0 < session.position →
      ∃ back, session.perform .stepBackward = (.done, back) ∧
        back.perform .stepForward = (.done, session)) ∧
    (session.position + 1 < session.timeline.length →
      ∃ ahead, session.perform .stepForward = (.done, ahead) ∧
        ahead.perform .stepBackward = (.done, session)) := by
  intro session
  have coherent := new_after_coherent source config directions commands
  have pinned := new_after_pinned source config directions settled
  exact ⟨step_backward coherent pinned attached, backward_forward coherent pinned attached,
    forward_backward coherent pinned attached⟩

/-- The budget ends just before a put that lands, which is undone all the same. -/
theorem undo_and_redo_exact_of_put :
    let session := (Session.new "88*30p1.@" ⟨100, true, 700⟩ (Script.ofList [])).after
      [.run, .setHeading .up, .jumpToEnd]
    session.truncated = true ∧ session.machine.lands 100 = true ∧ session.machine.halt = none ∧
    (∃ back, (session.perform .step).2.perform .stepBackward = (.done, back) ∧
      back.machine = session.machine ∧ back.position = session.position) ∧
    session.position = 5 ∧
    ∃ back, session.perform .stepBackward = (.done, back) ∧
      back.perform .stepForward = (.done, session) := by
  intro session
  obtain ⟨undone, redone, _⟩ := undo_and_redo_exact "88*30p1.@" ⟨100, true, 700⟩ (Script.ofList [])
    [.run, .setHeading .up, .jumpToEnd] (by decide +kernel) (by decide +kernel)
  exact ⟨by decide +kernel, by decide +kernel, by decide +kernel, undone (by decide +kernel),
    by decide +kernel, redone (by decide +kernel)⟩

/-- Errors of navigation are exactly those of an empty record and of its two ends, and
they change nothing. A move that succeeds shows the snapshot it leads to and leaves
the rest of the session alone. -/
theorem navigation_exact_and_atomic (source : String) (config : Config) (directions : σ)
    (commands : List Command) :
    let session := (Session.new source config directions).after commands
    let count := session.timeline.length
    (∀ command : Command, command.navigates = true →
      ((session.perform command).1 = .failed .noSnapshots ↔ count = 0) ∧
        ∀ index, (session.perform command).1 ≠ .failed (.snapshotMissing index)) ∧
    (0 < count →
      ((session.perform .stepBackward).1 = .failed .atStart ↔
        session.atSnapshot = true ∧ session.position = 0) ∧
      (∀ position, (session.perform .stepForward).1 = .failed (.atEnd position) ↔
        position = session.position ∧
          (session.atSnapshot = false ∨ session.position + 1 = count)) ∧
      (session.perform .rewind).1 = .done ∧ (session.perform .jumpToEnd).1 = .done) ∧
    (∀ command : Command, command.navigates = true →
      (∃ error, session.perform command = (.failed error, session) ∧
        (error = .noSnapshots ∨ command = .stepBackward ∧ error = .atStart ∨
          command = .stepForward ∧ error = .atEnd session.position)) ∨
      ∃ next snapshot, session.perform command = (.done, next) ∧
        session.timeline.snapshots[session.destination command]? = some snapshot ∧
        next.machine = snapshot.machine ∧ next.position = session.destination command ∧
        next.atSnapshot = true ∧ next.timeline = session.timeline ∧
        next.truncated = session.truncated ∧ next.config = session.config ∧
        next.directions = session.directions) := by
  intro session count
  have coherent : session.Coherent _ := new_after_coherent source config directions commands
  refine ⟨?_, ?_, ?_⟩
  · intro command navigates
    rw [failed_iff_refusal coherent navigates]
    refine ⟨session.refusal_eq_noSnapshots command, ?_⟩
    intro index
    rw [Ne, failed_iff_refusal coherent navigates]
    intro missing
    simpa using refusal_cases missing
  · intro filled
    have filled : session.timeline.length ≠ 0 := filled.ne'
    rw [failed_iff_refusal coherent rfl, done_iff_accepted coherent rfl,
      done_iff_accepted coherent rfl]
    refine ⟨?_, ?_, ?_, ?_⟩
    · simp [refusal, filled]
    · intro position
      have ended : session.refusal .stepForward = some (.atEnd position) ↔
          (session.atSnapshot = false ∨ session.position + 1 = session.timeline.length) ∧
            session.position = position := by simp [refusal, filled]
      rw [failed_iff_refusal coherent rfl, ended, and_comm, @eq_comm _ position]
    · simp [refusal, filled]
    · simp [refusal, filled]
  · intro command navigates
    cases refused : session.refusal command with
    | some error =>
      exact .inl ⟨error, perform_of_refusal coherent navigates refused, refusal_cases refused⟩
    | none =>
      have there := List.getElem?_eq_getElem (destination_lt coherent navigates refused)
      exact .inr ⟨_, _, perform_of_accepted coherent navigates refused there,
        Array.getElem?_toList.symm.trans there, rfl, rfl, rfl, rfl, rfl, rfl, rfl⟩

end Befunge.Session
