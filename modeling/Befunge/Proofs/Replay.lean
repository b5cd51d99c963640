import Befunge.Proofs.Retracing

/-! Navigation and repeated execution do not change what a program computes nor what
is recorded of it, as long as no heading is set by hand and the answers to requests
for a heading do not depend on when they are made. -/
namespace Befunge.Session

variable {σ : Type} [DirectionSource σ]

section Agreement

variable {setting : Setting} {session first second : Session σ} {path : Nat → Machine}
  {reached : Nat}

omit [DirectionSource σ] in
theorem Retraces.reached_le {other : Nat} (here : first.Retraces path reached)
    (there : second.Retraces path other) (halted : first.machine.halt ≠ none) : other ≤ reached := by
  by_contra later
  have running := there.running reached (by omega)
  rw [here.machine] at halted
  exact halted running

theorem Retraces.reached_lt (retraces : session.Retraces path reached)
    (coherent : session.Coherent setting) (attached : session.atSnapshot = true) :
    reached < session.timeline.length := by
  obtain ⟨snapshot, _, found, _⟩ := coherent.present attached
  rw [retraces.attached attached] at found
  exact (List.getElem?_eq_some_iff.mp found).1

/-- Nothing is recorded after a state that has halted. -/
theorem Retraces.length_le_reached (retraces : session.Retraces path reached)
    (coherent : session.Coherent setting) (halted : session.machine.halt ≠ none) :
    session.timeline.length ≤ reached + 1 := by
  by_contra later
  rw [Timeline.length_eq] at later
  have next : reached + 1 < session.timeline.snapshots.toList.length := by omega
  have here := List.getElem?_eq_getElem (Nat.lt_of_succ_lt next)
  have follows := coherent.chronicle.follows here (List.getElem?_eq_getElem next)
  have running := follows.succeeds.1
  rw [retraces.snapshot here, ← retraces.machine] at running
  exact halted running

theorem Retraces.position_eq (retraces : session.Retraces path reached)
    (coherent : session.Coherent setting) (halted : session.machine.halt ≠ none) :
    session.position = session.timeline.length - 1 := by
  cases attached : session.atSnapshot with
  | false => exact coherent.trailing attached
  | true =>
    have above := retraces.length_le_reached coherent halted
    have below := retraces.reached_lt coherent attached
    have position := retraces.attached attached
    omega

/-- At the end of a path nothing more can be recorded than another session has recorded
there. -/
theorem Retraces.length_le (here : first.Retraces path reached) (there : second.Retraces path reached)
    (coherent : first.Coherent setting) (other : second.Coherent setting)
    (halted : first.machine.halt ≠ none) : first.timeline.length ≤ second.timeline.length := by
  by_contra shorter
  have recording : second.config.recordHistory = true := by
    rw [other.config]
    exact coherent.records (.inl (by omega))
  -- The other session is at the end of the path too, so either that state is on its
  -- record or the budget has run out before.
  rcases other.recording recording with attached | full
  · have above := here.length_le_reached coherent halted
    have below := there.reached_lt other attached
    omega
  · have refused := (there.exhausted full).1
    have usage := here.usage coherent
    have affordable := coherent.chronicle.balanced.affordable
    have more := Machine.expense_range_le setting.config.stepLimit path
      (Nat.lt_of_not_le shorter)
    rw [other.config, other.chronicle.budget] at refused
    rw [coherent.chronicle.budget] at affordable
    rw [Nat.succ_eq_add_one] at more
    omega

theorem Retraces.truncated_of (here : first.Retraces path reached)
    (there : second.Retraces path reached) (coherent : first.Coherent setting)
    (other : second.Coherent setting) (halted : first.machine.halt ≠ none)
    (length : first.timeline.length = second.timeline.length) (full : first.truncated = true) :
    second.truncated = true := by
  have recording : second.config.recordHistory = true := by
    rw [other.config]
    exact coherent.records (.inr full)
  rcases other.recording recording with attached | also
  · have inside := there.reached_lt other attached
    have running := (here.exhausted full).2 reached (length ▸ inside)
    rw [here.machine] at halted
    exact absurd running halted
  · exact also

end Agreement

section Path

variable {source : String} {config : Config} {directions : σ} {commands : List Command}

/-- Where answers do not depend on when they are made, every session at a state of the
course steps to the next one. -/
theorem proceed_course
    (predictable : (∃ heading, ∀ number, DirectionSource.answer number directions = heading) ∨
      ∀ count, (course source config directions count).asks config.stepLimit = false)
    {session : Session σ} (coherent : session.Coherent (setting source config directions commands))
    {reached : Nat} (machine : session.machine = course source config directions reached)
    (running : session.machine.halt = none) :
    session.proceed.machine = course source config directions (reached + 1) := by
  let fresh := (new source config directions).runFor reached
  have freshCoherent := runFor_coherent (new_in_setting source config directions commands) reached
  have same : fresh.machine = session.machine := machine.symm
  have next : course source config directions (reached + 1) = fresh.proceed.machine := by
    rw [course, runFor_succ, (step_outside (same ▸ running)).1]
  obtain ⟨answer, ⟨number, given⟩, stepped⟩ := proceed_machine coherent.toKept
  obtain ⟨other, ⟨otherNumber, otherGiven⟩, otherStepped⟩ := proceed_machine freshCoherent.toKept
  rw [next, stepped, otherStepped]
  change _ = fresh.machine.step _ other
  rw [same]
  rcases predictable with ⟨heading, constant⟩ | quiet
  · rw [← given, ← otherGiven, constant, constant]
  · apply Machine.step_answer
    rw [machine]
    exact quiet reached

/-- A session in good order that has come to some state of the course. -/
def OnCourse (source : String) (config : Config) (directions : σ) (commands : List Command)
    (session : Session σ) : Prop :=
  session.Coherent (setting source config directions commands) ∧
    ∃ reached, session.Retraces (course source config directions) reached

theorem new_onCourse (source : String) (config : Config) (directions : σ) (commands : List Command) :
    (new source config directions).OnCourse source config directions commands := by
  have begun := new_in_setting source config directions commands
  exact ⟨begun, 0, course_retraces source config directions begun fun _ before => nomatch before⟩

theorem step_onCourse
    (predictable : (∃ heading, ∀ number, DirectionSource.answer number directions = heading) ∨
      ∀ count, (course source config directions count).asks config.stepLimit = false)
    {session : Session σ} (running : session.machine.halt = none)
    (onCourse : session.OnCourse source config directions commands) :
    session.step.OnCourse source config directions commands := by
  obtain ⟨coherent, reached, retraces⟩ := onCourse
  have onward := proceed_course predictable coherent retraces.machine running
  exact ⟨step_coherent coherent running, reached + 1, retraces.step coherent running onward⟩

end Path

/-- Whatever steps, runs and navigation came before, a run ends as a run of a new
session does, with the same record. -/
theorem run_after_navigation (source : String) (config : Config) (directions : σ)
    (commands : List Command) (unsteered : ∀ heading, .setHeading heading ∉ commands)
    (predictable : (∃ heading, ∀ number, DirectionSource.answer number directions = heading) ∨
      ∀ count, ((Session.new source config directions).runFor count).machine.asks
        config.stepLimit = false) :
    let fresh := (Session.new source config directions).run
    let travelled := ((Session.new source config directions).after commands).run
    travelled.machine = fresh.machine ∧
    travelled.timeline.length = fresh.timeline.length ∧
    travelled.timeline.snapshots.map Snapshot.machine =
      fresh.timeline.snapshots.map Snapshot.machine ∧
    travelled.timeline.usage = fresh.timeline.usage ∧
    travelled.position = fresh.position ∧
    travelled.truncated = fresh.truncated := by
  intro fresh travelled
  have begun := new_onCourse source config directions commands
  have stepped (session : Session σ) (running : session.machine.halt = none)
      (onCourse : session.OnCourse source config directions commands) :
      session.step.OnCourse source config directions commands :=
    step_onCourse predictable running onCourse
  have wandered : ((new source config directions).after commands).OnCourse
      source config directions commands := by
    apply after_preserves stepped _ _ begun
    · rintro session index next restored ⟨coherent, reached, retraces⟩
      exact ⟨restore_coherent coherent restored, index, retraces.restore coherent restored⟩
    · intro session heading member
      exact absurd member (unsteered heading)
  obtain ⟨coherent, reached, there⟩ : travelled.OnCourse source config directions commands :=
    runFor_preserves stepped _ wandered
  obtain ⟨freshCoherent, finish, here⟩ : fresh.OnCourse source config directions commands :=
    runFor_preserves stepped _ begun
  have halted : travelled.machine.halt ≠ none := run_halts _
  have freshHalted : fresh.machine.halt ≠ none := run_halts _
  obtain rfl : reached = finish :=
    Nat.le_antisymm (here.reached_le there freshHalted) (there.reached_le here halted)
  have length : travelled.timeline.length = fresh.timeline.length :=
    Nat.le_antisymm (there.length_le here coherent freshCoherent halted)
      (here.length_le there freshCoherent coherent freshHalted)
  refine ⟨there.machine.trans here.machine.symm, length, ?_, ?_, ?_, ?_⟩
  · apply Array.toList_inj.mp
    rw [Array.toList_map, Array.toList_map, there.recorded, here.recorded, length]
  · rw [there.usage coherent, here.usage freshCoherent, length]
  · rw [there.position_eq coherent halted, here.position_eq freshCoherent freshHalted, length]
  · apply Bool.eq_iff_iff.mpr
    exact ⟨there.truncated_of here coherent freshCoherent halted length,
      here.truncated_of there freshCoherent coherent freshHalted length.symm⟩

private theorem answer_right (number : Nat) :
    DirectionSource.answer number (Script.ofList [.right]) = .right := by
  rw [Script.answer_eq]
  simp [Script.ofList, Nat.mod_one]

/-- A program with a put and a request for a heading, under a budget that is too small
for its whole run. -/
theorem run_after_navigation_of_put :
    (∀ number, DirectionSource.answer number (Script.ofList [.right]) = .right) ∧
    let start := Session.new "88*30p?1.@" ⟨100, true, 1000⟩ (Script.ofList [.right])
    let fresh := start.run
    let travelled := (start.after
      [.step, .step, .run, .rewind, .stepForward, .step, .jumpToEnd, .stepBackward]).run
    travelled.machine = fresh.machine ∧
    travelled.timeline.length = fresh.timeline.length ∧
    travelled.timeline.snapshots.map Snapshot.machine =
      fresh.timeline.snapshots.map Snapshot.machine ∧
    travelled.timeline.usage = fresh.timeline.usage ∧
    travelled.position = fresh.position ∧
    travelled.truncated = fresh.truncated := by
  refine ⟨answer_right, ?_⟩
  exact run_after_navigation "88*30p?1.@" ⟨100, true, 1000⟩ (Script.ofList [.right])
    [.step, .step, .run, .rewind, .stepForward, .step, .jumpToEnd, .stepBackward]
    (by simp) (.inl ⟨.right, answer_right⟩)

end Befunge.Session
