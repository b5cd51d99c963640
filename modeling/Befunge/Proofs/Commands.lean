import Befunge.Proofs.Accounting
import Befunge.Proofs.Cycle
import Befunge.Session

/-! Sessions under sequences of commands. Every command comes down to steps of a
running machine, to snapshots restored and to headings set, so a property that
these three keep holds after every sequence. -/
namespace Befunge

namespace DirectionSource

variable {σ : Type} [DirectionSource σ]

def answer : Nat → σ → Heading
  | 0, source => (next source).1
  | number + 1, source => answer number (next source).2

end DirectionSource

theorem Script.answer_eq (script : Script) (number : Nat) :
    DirectionSource.answer number script =
      script.headings[(script.position + number) % script.headings.size]?.getD .right := by
  induction number generalizing script with
  | zero => rfl
  | succ number ih =>
    rw [DirectionSource.answer, ih]
    change script.headings[(script.position + 1 + number) % script.headings.size]?.getD .right = _
    rw [Nat.add_assoc, Nat.add_comm 1 number]

namespace Command

def advances : Command → Bool
  | step | run => true
  | _ => false

def navigates : Command → Bool
  | stepBackward | stepForward | rewind | jumpToEnd => true
  | _ => false

theorem not_advances {command : Command} (navigates : command.navigates = true) :
    command.advances = false := by
  cases command with
  | step | run => cases navigates
  | _ => rfl

end Command

namespace Session

variable {σ : Type}

section Operations

/-- The edition that the next snapshot gets, and how many there are then. -/
inductive Issued (session : Session σ) : Edition → Nat → Prop
  | shared (edition : Edition) (present : session.shared = some edition) :
      Issued session edition session.editions
  | fresh (absent : session.shared = none) :
      Issued session ⟨session.editions, session.machine.field⟩ (session.editions + 1)

def draft (session : Session σ) (edition : Edition) : Snapshot :=
  ⟨{session.machine with field := edition.field}, edition.number⟩

/-- The three ways in which an attempt to record the present state can end. -/
inductive Captured (session : Session σ) : Session σ → Prop
  | skipped (idle : session.config.recordHistory = false ∨ session.truncated = true) :
      Captured session {session with atSnapshot := false}
  | recorded (edition : Edition) (editions : Nat) (issued : session.Issued edition editions)
      (recording : session.config.recordHistory = true) (room : session.truncated = false)
      (afforded : session.timeline.usage + session.timeline.cost (session.draft edition) ≤
        session.timeline.budget) :
      Captured session {session with
        timeline := session.timeline.append (session.draft edition)
        position := session.timeline.length
        atSnapshot := true
        shared := some edition
        editions}
  | refused (edition : Edition) (editions : Nat) (issued : session.Issued edition editions)
      (recording : session.config.recordHistory = true) (room : session.truncated = false)
      (expensive : session.timeline.budget <
        session.timeline.usage + session.timeline.cost (session.draft edition)) :
      Captured session {session with
        atSnapshot := false
        truncated := true
        shared := some edition
        editions}

private theorem publish_issued (session : Session σ) :
    ∃ edition editions, session.Issued edition editions ∧
      session.publish = (edition, {session with shared := some edition, editions}) := by
  unfold publish
  split
  · rename_i edition present
    refine ⟨edition, _, .shared edition present, ?_⟩
    rw [← present]
  · rename_i absent
    exact ⟨_, _, .fresh absent, rfl⟩

theorem capture_captured (session : Session σ) : session.Captured session.capture := by
  unfold capture
  split
  · rename_i idle
    exact .skipped (by simpa using idle)
  · rename_i busy
    have busy : session.config.recordHistory = true ∧ session.truncated = false := by simpa using busy
    obtain ⟨edition, editions, issued, published⟩ := session.publish_issued
    simp only [published]
    split
    · rename_i next recorded
      obtain ⟨afforded, rfl⟩ := Timeline.record_ok recorded
      have position : (session.timeline.append (session.draft edition)).length - 1 =
          session.timeline.length := by
        simp [Timeline.length_eq]
      have kept := Captured.recorded edition editions issued busy.1 busy.2 afforded
      rw [← position] at kept
      exact kept
    · rename_i refused
      exact .refused edition editions issued busy.1 busy.2 (Timeline.record_error refused)

/-- Recording looks at the machine and does not touch it. -/
theorem capture_outside (session : Session σ) : session.capture.config = session.config ∧
    session.capture.machine = session.machine ∧ session.capture.directions = session.directions := by
  have captured := session.capture_captured
  generalize session.capture = next at captured
  cases captured <;> exact ⟨rfl, rfl, rfl⟩

@[simp]
theorem forgetLater_config (session : Session σ) : session.forgetLater.config = session.config := by
  unfold forgetLater
  split <;> rfl

@[simp]
theorem forgetLater_machine (session : Session σ) :
    session.forgetLater.machine = session.machine := by
  unfold forgetLater
  split <;> rfl

@[simp]
theorem forgetLater_directions (session : Session σ) :
    session.forgetLater.directions = session.directions := by
  unfold forgetLater
  split <;> rfl

theorem restore_ok {session next : Session σ} {index : Nat}
    (restored : session.restore index = .ok next) :
    ∃ snapshot, session.timeline.snapshots.toList[index]? = some snapshot ∧
      next = {session.adopt snapshot with position := index, atSnapshot := true} := by
  unfold restore at restored
  split at restored
  · cases restored
  · rename_i snapshot found
    exact ⟨snapshot, by simpa using found, (Except.ok.inj restored).symm⟩

theorem navigation_restores {session next : Session σ}
    (moved : session.stepBackward = .ok next ∨ session.stepForward = .ok next ∨
      session.rewind = .ok next ∨ session.jumpToEnd = .ok next) :
    ∃ index, session.restore index = .ok next := by
  rcases moved with moved | moved | moved | moved
  · unfold stepBackward at moved
    split at moved
    · cases moved
    · split at moved
      · exact ⟨_, moved⟩
      · split at moved
        · cases moved
        · exact ⟨_, moved⟩
  · unfold stepForward at moved
    split at moved
    · cases moved
    · split at moved
      · cases moved
      · exact ⟨_, moved⟩
  · unfold rewind at moved
    split at moved
    · cases moved
    · exact ⟨_, moved⟩
  · unfold jumpToEnd at moved
    split at moved
    · cases moved
    · exact ⟨_, moved⟩

variable [DirectionSource σ]

/-- A step asks for an answer or gets by with any. -/
theorem proceed_eq (session : Session σ) : ∃ answer directions,
    session.proceed = {session with
      machine := session.machine.step session.config.stepLimit answer
      directions
      shared := if session.machine.lands session.config.stepLimit then none else session.shared} ∧
    ((session.machine.asks session.config.stepLimit = true ∧
        (answer, directions) = DirectionSource.next session.directions) ∨
      (session.machine.asks session.config.stepLimit = false ∧ directions = session.directions)) := by
  cases asks : session.machine.asks session.config.stepLimit with
  | true =>
    refine ⟨(DirectionSource.next session.directions).1, (DirectionSource.next session.directions).2,
      ?_, .inl ⟨rfl, rfl⟩⟩
    simp only [proceed, asks, if_true]
  | false =>
    refine ⟨session.machine.pointer.heading, session.directions, ?_, .inr ⟨rfl, rfl⟩⟩
    simp only [proceed, asks, Bool.false_eq_true, if_false]

theorem step_of_running {session : Session σ} (running : session.machine.halt = none) :
    session.step = session.forgetLater.proceed.capture := by
  rw [step, running]
  rfl

theorem step_of_halted {session : Session σ} (halted : session.machine.halt ≠ none) :
    session.step = session := by
  rw [step, if_pos (Option.isSome_iff_ne_none.mpr halted)]

theorem step_config (session : Session σ) : session.step.config = session.config := by
  by_cases running : session.machine.halt = none
  · obtain ⟨_, _, proceeded, _⟩ := session.forgetLater.proceed_eq
    rw [step_of_running running, session.forgetLater.proceed.capture_outside.1, proceeded]
    exact session.forgetLater_config
  · rw [step_of_halted running]

/-- What a session records has no part in what its machine does. -/
theorem step_outside {session : Session σ} (running : session.machine.halt = none) :
    session.step.machine = session.proceed.machine ∧
      session.step.directions = session.proceed.directions := by
  obtain ⟨_, machine, directions⟩ := session.forgetLater.proceed.capture_outside
  rw [step_of_running running, machine, directions]
  simp only [proceed, forgetLater_config, forgetLater_machine, forgetLater_directions]
  split <;> exact ⟨rfl, rfl⟩

end Operations

variable [DirectionSource σ]

section Running

theorem runFor_of_halted {session : Session σ} (halted : session.machine.halt ≠ none) (count : Nat) :
    session.runFor count = session := by
  cases count with
  | zero => rfl
  | succ count => rw [runFor, if_pos (Option.isSome_iff_ne_none.mpr halted)]

theorem runFor_of_running {session : Session σ} (running : session.machine.halt = none)
    (count : Nat) : session.runFor (count + 1) = session.step.runFor count := by
  rw [runFor, running]
  rfl

theorem runFor_succ (session : Session σ) (count : Nat) :
    session.runFor (count + 1) = (session.runFor count).step := by
  induction count generalizing session with
  | zero =>
    by_cases running : session.machine.halt = none
    · rw [runFor_of_running running]
      rfl
    · rw [runFor_of_halted running, runFor_of_halted running, step_of_halted running]
  | succ count ih =>
    by_cases running : session.machine.halt = none
    · rw [runFor_of_running running, runFor_of_running running, ih]
    · rw [runFor_of_halted running, runFor_of_halted running, step_of_halted running]

theorem runFor_add (session : Session σ) (first second : Nat) :
    session.runFor (first + second) = (session.runFor first).runFor second := by
  induction second with
  | zero => rfl
  | succ second ih => rw [← Nat.add_assoc, runFor_succ, runFor_succ, ih]

theorem runFor_config (session : Session σ) (count : Nat) :
    (session.runFor count).config = session.config := by
  induction count with
  | zero => rfl
  | succ count ih => rw [runFor_succ, step_config, ih]

private theorem runFor_halts {session : Session σ} {count : Nat}
    (enough : session.config.stepLimit - session.machine.steps < count) :
    (session.runFor count).machine.halt ≠ none := by
  induction count generalizing session with
  | zero => cases enough
  | succ count ih =>
    by_cases running : session.machine.halt = none
    · obtain ⟨answer, directions, proceeded, _⟩ := session.proceed_eq
      have machine : session.step.machine =
          session.machine.step session.config.stepLimit answer := by
        rw [(step_outside running).1, proceeded]
      rw [runFor_of_running running]
      cases decided : session.machine.verdict session.config.stepLimit with
      | some halt =>
        have halted : session.step.machine.halt ≠ none := by
          rw [machine, Machine.step_of_verdict decided]
          simp
        rwa [runFor_of_halted halted]
      | none =>
        apply ih
        have below := Machine.steps_lt_of_running decided
        rw [step_config, machine, Machine.step_of_running decided, Machine.cycle_steps]
        omega
    · rwa [runFor_of_halted running]

/-- The step limit sees to it that every run ends. -/
theorem run_halts (session : Session σ) : session.run.machine.halt ≠ none :=
  runFor_halts (Nat.lt_succ_self _)

end Running

def after (session : Session σ) (commands : List Command) : Session σ :=
  commands.foldl (fun session command => (session.perform command).2) session

@[simp]
theorem after_cons (session : Session σ) (command : Command) (commands : List Command) :
    session.after (command :: commands) = (session.perform command).2.after commands := rfl

/-- Everything that a command can do to a session. -/
inductive Performed (session : Session σ) : Command → Reply × Session σ → Prop
  | idle {command : Command} (advances : command.advances = true)
      (halted : session.machine.halt ≠ none) (reply : Reply) :
      Performed session command (reply, session)
  | advanced {command : Command} (advances : command.advances = true)
      (running : session.machine.halt = none) (count : Nat) (reply : Reply) :
      Performed session command (reply, session.step.runFor count)
  | restored {command : Command} (navigates : command.navigates = true) {index : Nat}
      {next : Session σ} (found : session.restore index = .ok next) :
      Performed session command (.done, next)
  | failed {command : Command} (navigates : command.navigates = true) (error : HistoryError) :
      Performed session command (.failed error, session)
  | turned (heading : Heading) :
      Performed session (.setHeading heading) (.done, session.setHeading heading)

private theorem navigated_performed (session : Session σ) {command : Command}
    (navigates : command.navigates = true) {result : Except HistoryError (Session σ)}
    (restores : ∀ next, result = .ok next → ∃ index, session.restore index = .ok next) :
    session.Performed command (session.navigated result) := by
  cases result with
  | ok next =>
    obtain ⟨index, found⟩ := restores next rfl
    exact .restored navigates found
  | error error => exact .failed navigates error

theorem perform_performed (session : Session σ) (command : Command) :
    session.Performed command (session.perform command) := by
  cases command with
  | step =>
    by_cases running : session.machine.halt = none
    · exact .advanced rfl running 0 _
    · rw [perform, step_of_halted running]
      exact .idle rfl running _
  | run =>
    by_cases running : session.machine.halt = none
    · rw [perform, run, runFor_of_running running]
      exact .advanced rfl running _ _
    · rw [perform, run, runFor_of_halted running]
      exact .idle rfl running _
  | stepBackward =>
    apply session.navigated_performed rfl
    intro next moved
    exact navigation_restores (.inl moved)
  | stepForward =>
    apply session.navigated_performed rfl
    intro next moved
    exact navigation_restores (.inr (.inl moved))
  | rewind =>
    apply session.navigated_performed rfl
    intro next moved
    exact navigation_restores (.inr (.inr (.inl moved)))
  | jumpToEnd =>
    apply session.navigated_performed rfl
    intro next moved
    exact navigation_restores (.inr (.inr (.inr moved)))
  | setHeading heading => exact .turned heading

section Preservation

variable {P : Session σ → Prop}

theorem runFor_preserves
    (stepped : ∀ session, session.machine.halt = none → P session → P session.step)
    (count : Nat) {session : Session σ} (holds : P session) : P (session.runFor count) := by
  induction count generalizing session with
  | zero => exact holds
  | succ count ih =>
    rw [runFor]
    split
    · exact holds
    · rename_i running
      exact ih (stepped session (by simpa using running) holds)

theorem perform_preserves {session : Session σ} {command : Command}
    (stepped : ∀ session, session.machine.halt = none → P session → P session.step)
    (restored : ∀ session index next, session.restore index = .ok next → P session → P next)
    (turned : ∀ session heading, command = .setHeading heading → P session →
      P (session.setHeading heading))
    (holds : P session) : P (session.perform command).2 := by
  have performed := session.perform_performed command
  generalize session.perform command = outcome at performed
  cases performed with
  | idle => exact holds
  | advanced advances running count => exact runFor_preserves stepped count (stepped _ running holds)
  | restored navigates found => exact restored session _ _ found holds
  | failed => exact holds
  | turned heading => exact turned session heading rfl holds

/-- What steps, restored snapshots and set headings keep holds after all commands. -/
theorem after_preserves {session : Session σ} {commands : List Command}
    (stepped : ∀ session, session.machine.halt = none → P session → P session.step)
    (restored : ∀ session index next, session.restore index = .ok next → P session → P next)
    (turned : ∀ session heading, .setHeading heading ∈ commands → P session →
      P (session.setHeading heading))
    (holds : P session) : P (session.after commands) := by
  induction commands generalizing session with
  | nil => exact holds
  | cons command commands ih =>
    rw [after_cons]
    apply ih
    · intro session heading member
      exact turned session heading (List.mem_cons_of_mem _ member)
    · apply perform_preserves stepped restored _ holds
      rintro session heading rfl
      exact turned session heading List.mem_cons_self

end Preservation

end Session

end Befunge
