import Befunge.Proofs.Retracing

/-! Recording is an observer. Switching it on or off or giving it another budget
changes nothing that a program does, and what it keeps of a run is as long a first
part as the budget allows. -/
namespace Befunge.Session

variable {σ : Type} [DirectionSource σ]

def replies : Session σ → List Command → List Reply
  | _, [] => []
  | session, command :: commands =>
    (session.perform command).1 :: (session.perform command).2.replies commands

section Transparency

/-- Two sessions that may differ in what they record but in nothing that they execute. -/
structure Alike (first second : Session σ) : Prop where
  limit : first.config.stepLimit = second.config.stepLimit
  machine : first.machine = second.machine
  directions : first.directions = second.directions

variable {first second : Session σ}

theorem Alike.proceed (alike : first.Alike second) :
    first.proceed.machine = second.proceed.machine ∧
      first.proceed.directions = second.proceed.directions := by
  simp only [Session.proceed, alike.limit, alike.machine, alike.directions]
  split <;> exact ⟨rfl, rfl⟩

theorem Alike.step (alike : first.Alike second) : first.step.Alike second.step := by
  by_cases running : first.machine.halt = none
  · have alsoRunning : second.machine.halt = none := by rw [← alike.machine, running]
    obtain ⟨machine, directions⟩ := alike.proceed
    refine ⟨by rw [step_config, step_config, alike.limit], ?_, ?_⟩
    · rw [(step_outside running).1, (step_outside alsoRunning).1, machine]
    · rw [(step_outside running).2, (step_outside alsoRunning).2, directions]
  · have alsoHalted : second.machine.halt ≠ none := by rwa [← alike.machine]
    rwa [step_of_halted running, step_of_halted alsoHalted]

theorem Alike.runFor (alike : first.Alike second) (count : Nat) :
    (first.runFor count).Alike (second.runFor count) := by
  induction count with
  | zero => exact alike
  | succ count ih =>
    rw [runFor_succ, runFor_succ]
    exact ih.step

theorem Alike.perform (alike : first.Alike second) {command : Command}
    (onward : command.navigates = false) :
    (first.perform command).1 = (second.perform command).1 ∧
      (first.perform command).2.Alike (second.perform command).2 := by
  cases command with
  | step =>
    have stepped := alike.step
    refine ⟨?_, stepped⟩
    rw [Session.perform, Session.perform, stepped.machine]
  | run =>
    have ran : first.run.Alike second.run := by
      rw [run, run, alike.limit, alike.machine]
      exact alike.runFor _
    refine ⟨?_, ran⟩
    rw [Session.perform, Session.perform, ran.machine]
  | setHeading heading =>
    exact ⟨rfl, alike.limit, congrArg (·.turn heading) alike.machine, alike.directions⟩
  | stepBackward | stepForward | rewind | jumpToEnd => cases onward

theorem Alike.after (alike : first.Alike second) {commands : List Command}
    (onward : ∀ command ∈ commands, command.navigates = false) :
    first.replies commands = second.replies commands ∧
      (first.after commands).Alike (second.after commands) := by
  induction commands generalizing first second with
  | nil => exact ⟨rfl, alike⟩
  | cons command commands ih =>
    obtain ⟨reply, next⟩ := alike.perform (onward command List.mem_cons_self)
    obtain ⟨replies, last⟩ := ih next fun other member => onward other (List.mem_cons_of_mem _ member)
    refine ⟨?_, last⟩
    rw [Session.replies, Session.replies, reply, replies]

omit [DirectionSource σ] in
theorem new_alike (source : String) (directions : σ) {one other : Config}
    (limit : one.stepLimit = other.stepLimit) :
    (new source one directions).Alike (new source other directions) := by
  obtain ⟨config, machine, drawn⟩ := (load source one directions).capture_outside
  obtain ⟨otherConfig, otherMachine, otherDrawn⟩ := (load source other directions).capture_outside
  refine ⟨?_, machine.trans otherMachine.symm, drawn.trans otherDrawn.symm⟩
  calc (new source one directions).config.stepLimit
      _ = one.stepLimit := congrArg Config.stepLimit config
      _ = other.stepLimit := limit
      _ = (new source other directions).config.stepLimit :=
        (congrArg Config.stepLimit otherConfig).symm

end Transparency

section Trail

def trailFor : Nat → Session σ → List Machine
  | 0, _ => []
  | count + 1, session =>
    if session.machine.halt.isSome then [] else session.step.machine :: trailFor count session.step

/-- How many steps a command takes unless the machine halts before. -/
def quota (session : Session σ) : Command → Nat
  | .step => 1
  | .run => session.config.stepLimit - session.machine.steps + 1
  | _ => 0

/-- The machine after each step that the commands take. A step of a halted machine
is none. -/
def trail : Session σ → List Command → List Machine
  | _, [] => []
  | session, command :: commands =>
    session.trailFor (session.quota command) ++ (session.perform command).2.trail commands

/-- The states after each of `taken` steps, none of which finds the machine halted. -/
structure Walks (session : Session σ) (taken : Nat) (machines : List Machine) : Prop where
  running : ∀ earlier < taken, (session.runFor earlier).machine.halt = none
  states : machines = (List.range taken).map fun index => (session.runFor (index + 1)).machine

theorem Walks.append {session : Session σ} {first second : Nat} {early late : List Machine}
    (begun : session.Walks first early) (continued : (session.runFor first).Walks second late) :
    session.Walks (first + second) (early ++ late) := by
  refine ⟨?_, ?_⟩
  · intro earlier before
    by_cases inside : earlier < first
    · exact begun.running earlier inside
    · obtain ⟨more, rfl⟩ := Nat.exists_eq_add_of_le (Nat.le_of_not_lt inside)
      rw [runFor_add]
      exact continued.running more (by omega)
  · rw [begun.states, continued.states, List.range_add, List.map_append, List.map_map]
    simp only [Function.comp_def, Nat.add_assoc, ← runFor_add]

theorem trailFor_walks (session : Session σ) (count : Nat) : ∃ taken,
    session.runFor count = session.runFor taken ∧
      session.Walks taken (session.trailFor count) := by
  induction count generalizing session with
  | zero => exact ⟨0, rfl, by simp, rfl⟩
  | succ count ih =>
    by_cases running : session.machine.halt = none
    · obtain ⟨taken, same, walks⟩ := ih session.step
      have one : session.runFor 1 = session.step := session.runFor_succ 0
      have first : session.Walks 1 [session.step.machine] := by
        refine ⟨?_, by rw [← one]; rfl⟩
        intro earlier before
        rwa [Nat.lt_one_iff.mp before]
      refine ⟨1 + taken, ?_, ?_⟩
      · rw [runFor_of_running running, runFor_add, one, same]
      · rw [trailFor, running]
        exact first.append (one ▸ walks)
    · refine ⟨0, ?_, by simp, ?_⟩
      · rw [runFor_of_halted running, runFor_of_halted running]
      · rw [trailFor, if_pos (Option.isSome_iff_ne_none.mpr running)]
        rfl

theorem perform_advancing (session : Session σ) {command : Command}
    (advances : command.advances = true) :
    (session.perform command).2 = session.runFor (session.quota command) := by
  cases command with
  | step => exact (session.runFor_succ 0).symm
  | run => rfl
  | stepBackward | stepForward | rewind | jumpToEnd | setHeading => cases advances

theorem trail_walks (session : Session σ) {commands : List Command}
    (advancing : ∀ command ∈ commands, command.advances = true) : ∃ taken,
    session.after commands = session.runFor taken ∧
      session.Walks taken (session.trail commands) := by
  induction commands generalizing session with
  | nil => exact ⟨0, rfl, by simp, rfl⟩
  | cons command commands ih =>
    have performed := session.perform_advancing (advancing command List.mem_cons_self)
    obtain ⟨first, same, begun⟩ := session.trailFor_walks (session.quota command)
    obtain ⟨second, last, continued⟩ := ih (session.perform command).2
      fun other member => advancing other (List.mem_cons_of_mem _ member)
    rw [performed, same] at last continued
    refine ⟨first + second, ?_, ?_⟩
    · rw [after_cons, performed, same, last, runFor_add]
    · rw [trail, performed, same]
      exact begun.append continued

end Trail

section Stopping

/-- A session that records and has never been moved back: everything is on record up
to the present state, or the record has stopped short of it. -/
structure Onward (reached : Nat) (session : Session σ) : Prop where
  latest : session.atSnapshot = true → session.position + 1 = session.timeline.length
  complete : session.truncated = false → session.timeline.length = reached + 1
  stopped : session.truncated = true → session.timeline.length ≤ reached

variable {session : Session σ} {reached : Nat}

omit [DirectionSource σ] in
theorem capture_onward (recording : session.config.recordHistory = true)
    (complete : session.truncated = false → session.timeline.length = reached)
    (stopped : session.truncated = true → session.timeline.length ≤ reached) :
    session.capture.Onward reached := by
  have captured := session.capture_captured
  generalize session.capture = later at captured
  cases captured with
  | skipped idle =>
    have full : session.truncated = true := by simpa [recording] using idle
    refine ⟨?_, ?_, stopped⟩
    · intro attached
      cases attached
    · intro room
      cases room.symm.trans full
  | recorded edition editions issued recording room afforded =>
    have length : (session.timeline.append (session.draft edition)).length =
        session.timeline.length + 1 := by
      simp [Timeline.length_eq]
    refine ⟨fun _ => length.symm, fun _ => by rw [length, complete room], ?_⟩
    intro full
    cases room.symm.trans full
  | refused edition editions issued recording room expensive =>
    -- The record was complete so far, and from now on it stays as it is.
    refine ⟨?_, ?_, fun _ => (complete room).le⟩
    · intro attached
      cases attached
    · intro room
      cases room

omit [DirectionSource σ] in
theorem Onward.forgetLater_eq (onward : session.Onward reached) : session.forgetLater = session := by
  unfold forgetLater
  split
  · rename_i middle
    simp only [Bool.and_eq_true, decide_eq_true_eq] at middle
    have latest := onward.latest middle.1
    omega
  · rfl

theorem Onward.step (onward : session.Onward reached)
    (recording : session.config.recordHistory = true) (running : session.machine.halt = none) :
    session.step.Onward (reached + 1) := by
  obtain ⟨_, directions, proceeded, _⟩ := session.proceed_eq
  rw [step_of_running running, onward.forgetLater_eq]
  apply capture_onward <;> rw [proceeded]
  · exact recording
  · exact onward.complete
  · exact fun full => Nat.le_succ_of_le (onward.stopped full)

theorem runFor_onward (source : String) {config : Config} (directions : σ)
    (recording : config.recordHistory = true) {count : Nat}
    (running : ∀ earlier < count, (course source config directions earlier).halt = none) :
    ((new source config directions).runFor count).Onward count := by
  induction count with
  | zero =>
    have loaded : (load source config directions).truncated = false := rfl
    have begun : (load source config directions).capture.Onward 0 := by
      apply capture_onward recording
      · intro room
        rfl
      · intro full
        cases loaded.symm.trans full
    exact begun
  | succ count ih =>
    have earlier := ih fun index before => running index (Nat.lt_succ_of_lt before)
    have unchanged : ((new source config directions).runFor count).config = config := by
      rw [runFor_config]
      exact (load source config directions).capture_outside.1
    rw [runFor_succ]
    exact earlier.step (by rwa [unchanged]) (running count (Nat.lt_succ_self count))

omit [DirectionSource σ] in
theorem Onward.length_le (onward : session.Onward reached) :
    session.timeline.length ≤ reached + 1 := by
  cases stopped : session.truncated with
  | false => exact (onward.complete stopped).le
  | true => exact Nat.le_succ_of_le (onward.stopped stopped)

omit [DirectionSource σ] in
/-- A record stops short only where the budget does not allow one more state. -/
theorem Onward.length_le_of_affordable {path : Nat → Machine} {count : Nat}
    (onward : session.Onward reached) (retraces : session.Retraces path reached)
    (within : count ≤ reached + 1)
    (affordable : Machine.expense session.config.stepLimit none ((List.range count).map path) ≤
      session.timeline.budget) : count ≤ session.timeline.length := by
  cases stopped : session.truncated with
  | false => rwa [onward.complete stopped]
  | true =>
    -- The record was refused the state after its last one, so no longer part is paid for.
    by_contra longer
    have refused := (retraces.exhausted stopped).1
    have more := Machine.expense_range_le session.config.stepLimit path (Nat.lt_of_not_le longer)
    exact absurd (refused.trans_le more) (Nat.not_lt.mpr affordable)

end Stopping

private theorem initial_iff {path : Nat → Machine} {initial : List Machine} {count : Nat} :
    initial <+: (List.range count).map path ↔
      initial.length ≤ count ∧ initial = (List.range initial.length).map path := by
  rw [List.prefix_iff_eq_take, ← List.map_take, List.take_range]
  constructor
  · intro begins
    have length := congrArg List.length begins
    rw [List.length_map, List.length_range] at length
    have within : initial.length ≤ count := by omega
    rw [Nat.min_eq_left within] at begins
    exact ⟨within, begins⟩
  · rintro ⟨within, begins⟩
    rwa [Nat.min_eq_left within]

/-- Sessions that differ only in what they may record reply and execute alike. The
record of a session that is only stepped and run is the longest first part of its
states that the budget pays for. -/
theorem recording_transparent_and_greedy (source : String) (directions : σ) :
    (∀ (first second : Config) (commands : List Command), first.stepLimit = second.stepLimit →
      (∀ command ∈ commands, command.navigates = false) →
      let one := Session.new source first directions
      let other := Session.new source second directions
      one.replies commands = other.replies commands ∧
      (one.after commands).machine = (other.after commands).machine) ∧
    (∀ (config : Config) (commands : List Command), config.recordHistory = true →
      (∀ command ∈ commands, command.advances = true) →
      let start := Session.new source config directions
      let last := start.after commands
      let states := Machine.load source :: start.trail commands
      let recorded := last.timeline.snapshots.toList.map Snapshot.machine
      recorded <+: states ∧
      last.timeline.usage = Machine.expense config.stepLimit none recorded ∧
      Machine.expense config.stepLimit none recorded ≤ config.memoryLimit ∧
      (∀ initial, initial <+: states →
        Machine.expense config.stepLimit none initial ≤ config.memoryLimit →
        initial.length ≤ recorded.length) ∧
      (last.truncated = true ↔ recorded ≠ states)) := by
  refine ⟨?_, ?_⟩
  · intro first second commands limit onward one other
    obtain ⟨replies, ended⟩ := (new_alike source directions limit).after onward
    exact ⟨replies, ended.machine⟩
  · intro config commands recording advancing start last states recorded
    have begun := new_in_setting source config directions commands
    have coherent : last.Coherent (setting source config directions commands) :=
      new_after_coherent source config directions commands
    obtain ⟨taken, ended, walks⟩ := start.trail_walks advancing
    have retraces : last.Retraces (course source config directions) taken := by
      change (start.after commands).Retraces _ _
      rw [ended]
      exact course_retraces source config directions begun walks.running
    have onward : last.Onward taken := by
      change (start.after commands).Onward _
      rw [ended]
      exact runFor_onward source directions recording walks.running
    -- The record and the states passed are both first parts of the course.
    have kept : recorded = (List.range last.timeline.length).map (course source config directions) :=
      retraces.recorded
    have passed : states = (List.range (taken + 1)).map (course source config directions) := by
      rw [List.range_succ_eq_map, List.map_cons, List.map_map]
      refine congrArg₂ List.cons ?_ walks.states
      exact ((load source config directions).capture_outside.2.1).symm
    have usage := retraces.usage coherent
    have budget : last.timeline.budget = config.memoryLimit := coherent.chronicle.budget
    have limit : last.config = config := coherent.config
    have shorter : recorded.length = last.timeline.length := by
      rw [kept, List.length_map, List.length_range]
    refine ⟨?_, ?_, ?_, ?_, ?_⟩
    · rw [passed]
      exact initial_iff.mpr ⟨shorter ▸ onward.length_le, shorter ▸ kept⟩
    · rw [kept]
      exact usage
    · rw [kept, ← budget]
      exact usage ▸ coherent.chronicle.balanced.affordable
    · intro initial begins affordable
      rw [passed] at begins
      obtain ⟨within, same⟩ := initial_iff.mp begins
      rw [shorter]
      apply onward.length_le_of_affordable retraces within
      rwa [← same, limit, budget]
    · cases stopped : last.truncated with
      | false =>
        have whole : recorded = states := by rw [kept, passed, onward.complete stopped]
        simp [whole]
      | true =>
        have proper : recorded ≠ states := by
          intro whole
          have length := congrArg List.length whole
          rw [shorter, passed, List.length_map, List.length_range] at length
          have stopped := onward.stopped stopped
          omega
        simp [proper]

end Befunge.Session
