import Befunge.Proofs.Coherence

/-! Sessions that keep to one path of states. Such a session is at some state of the
path, has recorded a first part of it, and has stopped recording only where the
budget did not allow the next state. -/
namespace Befunge

namespace Machine

/-- Bytes for states recorded one after another. The playfield is charged with the
first of them and after every put that landed. -/
def expense (limit : Nat) : Option Machine → List Machine → Nat
  | _, [] => 0
  | previous, machine :: rest =>
    machine.footprint +
      (if previous.any fun before => !before.lands limit then 0 else machine.field.footprint) +
      expense limit (some machine) rest

theorem expense_le_append (limit : Nat) (previous : Option Machine) (first second : List Machine) :
    expense limit previous first ≤ expense limit previous (first ++ second) := by
  induction first generalizing previous with
  | nil => exact Nat.zero_le _
  | cons head rest ih => exact Nat.add_le_add_left (ih (some head)) _

theorem expense_range_le (limit : Nat) (path : Nat → Machine) {low high : Nat} (order : low ≤ high) :
    expense limit none ((List.range low).map path) ≤
      expense limit none ((List.range high).map path) := by
  obtain ⟨more, rfl⟩ := Nat.exists_eq_add_of_le order
  rw [List.range_add, List.map_append]
  exact expense_le_append ..

end Machine

/-- Along a chain of steps the editions say where puts have landed. -/
theorem Timeline.total_eq_expense {setting : Setting} (previous : Option Snapshot)
    (snapshots : List Snapshot)
    (linked : (previous.toList ++ snapshots).IsChain setting.Follows) :
    total previous snapshots = Machine.expense setting.config.stepLimit
      (previous.map Snapshot.machine) (snapshots.map Snapshot.machine) := by
  induction snapshots generalizing previous with
  | nil => rfl
  | cons head rest ih =>
    have sharing : (previous.any fun before => before.edition == head.edition) =
        ((previous.map Snapshot.machine).any fun before =>
          !before.lands setting.config.stepLimit) := by
      cases previous with
      | none => rfl
      | some before =>
        have follows : setting.Follows before head := by
          rw [Option.toList_some, List.singleton_append, List.isChain_cons_cons] at linked
          exact linked.1
        rw [Option.map_some, Option.any_some, Option.any_some, Bool.eq_iff_iff, beq_iff_eq,
          follows.shares, Bool.not_eq_true']
    rw [total, ih (some head) (List.isChain_append.mp linked).2.1, charge, sharing]
    rfl

namespace Session

variable {σ : Type} [DirectionSource σ]

structure Retraces (path : Nat → Machine) (reached : Nat) (session : Session σ) : Prop where
  machine : session.machine = path reached
  running : ∀ earlier < reached, (path earlier).halt = none
  recorded : session.timeline.snapshots.toList.map Snapshot.machine =
    (List.range session.timeline.length).map path
  attached : session.atSnapshot = true → session.position = reached
  exhausted : session.truncated = true →
    session.timeline.budget < Machine.expense session.config.stepLimit none
      ((List.range (session.timeline.length + 1)).map path) ∧
    ∀ index < session.timeline.length, (path index).halt = none

variable {setting : Setting} {session : Session σ} {path : Nat → Machine} {reached : Nat}

theorem Retraces.usage (retraces : session.Retraces path reached)
    (coherent : session.Coherent setting) : session.timeline.usage =
      Machine.expense setting.config.stepLimit none ((List.range session.timeline.length).map path) := by
  rw [coherent.chronicle.balanced.charged,
    Timeline.total_eq_expense none _ coherent.chronicle.linked, retraces.recorded]
  rfl

omit [DirectionSource σ] in
theorem Retraces.snapshot (retraces : session.Retraces path reached) {index : Nat}
    {snapshot : Snapshot} (found : session.timeline.snapshots.toList[index]? = some snapshot) :
    snapshot.machine = path index := by
  have inside := (List.getElem?_eq_some_iff.mp found).1
  have same := congrArg (fun machines => machines[index]?) retraces.recorded
  simp only [List.getElem?_map, found, List.getElem?_range inside, Timeline.length_eq] at same
  exact Option.some.inj same

theorem Due.retraces (due : session.Due setting) (machine : session.machine = path reached)
    (running : ∀ earlier < reached, (path earlier).halt = none)
    (recorded : session.timeline.snapshots.toList.map Snapshot.machine =
      (List.range session.timeline.length).map path)
    (exhausted : session.truncated = true →
      session.timeline.budget < Machine.expense session.config.stepLimit none
        ((List.range (session.timeline.length + 1)).map path) ∧
      ∀ index < session.timeline.length, (path index).halt = none)
    (next : session.config.recordHistory = true → session.truncated = false →
      session.timeline.length = reached) :
    session.capture.Retraces path reached := by
  have extended {edition : Edition} {editions : Nat} (issued : session.Issued edition editions)
      (length : session.timeline.length = reached) :
      (session.timeline.snapshots.toList ++ [session.draft edition]).map Snapshot.machine =
        (List.range (session.timeline.length + 1)).map path := by
    rw [List.map_append, recorded, List.range_succ, List.map_append, issued.draft_eq due.toKept,
      List.map_singleton, List.map_singleton, machine, length]
  have captured := session.capture_captured
  generalize session.capture = later at captured
  cases captured with
  | skipped idle =>
    refine ⟨machine, running, recorded, ?_, exhausted⟩
    intro attached
    cases attached
  | recorded edition editions issued recording room afforded =>
    have length := next recording room
    refine ⟨machine, running, ?_, fun _ => length, ?_⟩
    · rw [Timeline.length_eq, Timeline.append_snapshots, extended issued length]
      simp [Timeline.length_eq]
    · intro full
      cases room.symm.trans full
  | refused edition editions issued recording room expensive =>
    have length := next recording room
    refine ⟨machine, running, recorded, ?_, fun _ => ⟨?_, ?_⟩⟩
    · intro attached
      cases attached
    · have linked := due.chronicle.linked_concat fun last => issued.follows due recording room
      have total := Timeline.total_eq_expense none
        (session.timeline.snapshots.toList ++ [session.draft edition]) linked
      rw [Timeline.total_concat, Option.or_none, ← Timeline.cost_eq,
        ← due.chronicle.balanced.charged, extended issued length, ← due.config] at total
      exact total ▸ expensive
    · rw [length]
      exact running

theorem new_retraces (source : String) (config : Config) (directions : σ)
    (begins : path 0 = .load source) : (new source config directions).Retraces path 0 := by
  let setting : Setting := ⟨source, config, fun _ => False, fun _ => True⟩
  have due : (load source config directions).Due setting := load_due directions fun _ => trivial
  apply due.retraces begins.symm
  · intro earlier before
    cases before
  · rfl
  · intro full
    cases full
  · intro _ _
    rfl

omit [DirectionSource σ] in
theorem Retraces.forgetLater (retraces : session.Retraces path reached) :
    session.forgetLater.Retraces path reached := by
  unfold Session.forgetLater
  split
  · rename_i middle
    simp only [Bool.and_eq_true, decide_eq_true_eq] at middle
    refine ⟨retraces.machine, retraces.running, ?_, retraces.attached, ?_⟩
    · rw [Timeline.length_eq, Timeline.truncate_snapshots, List.map_take, retraces.recorded,
        ← List.map_take, List.take_range, List.length_take]
      rfl
    · intro full
      cases full
  · exact retraces

theorem Retraces.step (retraces : session.Retraces path reached) (coherent : session.Coherent setting)
    (running : session.machine.halt = none)
    (onward : session.proceed.machine = path (reached + 1)) :
    session.step.Retraces path (reached + 1) := by
  have due := step_due coherent running
  obtain ⟨resumed, latest⟩ := forgetLater_coherent coherent
  have earlier := retraces.forgetLater
  obtain ⟨_, directions, proceeded, _⟩ := session.forgetLater.proceed_eq
  have machine : session.forgetLater.proceed.machine = path (reached + 1) := by
    rw [← onward, ← (step_outside running).1, step_of_running running]
    exact (session.forgetLater.proceed.capture_outside.2.1).symm
  rw [step_of_running running]
  apply due.retraces machine
  · intro index before
    rcases Nat.lt_succ_iff_lt_or_eq.mp before with past | rfl
    · exact retraces.running index past
    · rw [← retraces.machine, running]
  · rw [proceeded]
    exact earlier.recorded
  · rw [proceeded]
    exact earlier.exhausted
  · rw [proceeded]
    intro recording room
    have attached := resumed.attached recording room
    rw [← latest attached, earlier.attached attached]

theorem Retraces.restore (retraces : session.Retraces path reached)
    (coherent : session.Coherent setting) {index : Nat} {next : Session σ}
    (restored : session.restore index = .ok next) : next.Retraces path index := by
  obtain ⟨snapshot, found, rfl⟩ := restore_ok restored
  rw [adopt_eq coherent.toKept (List.mem_of_getElem? found)]
  refine ⟨retraces.snapshot found, ?_, retraces.recorded, fun _ => rfl, retraces.exhausted⟩
  intro earlier before
  have inside := (List.getElem?_eq_some_iff.mp found).1
  have here := List.getElem?_eq_getElem (Nat.lt_trans before inside)
  have next := List.getElem?_eq_getElem (Nat.lt_of_le_of_lt before inside)
  rw [← retraces.snapshot here]
  exact (coherent.chronicle.follows here next).succeeds.1

/-- The states of a new session that is only ever stepped. -/
def course (source : String) (config : Config) (directions : σ) (count : Nat) : Machine :=
  ((new source config directions).runFor count).machine

/-- A session that is only ever stepped keeps to its own course. -/
theorem course_retraces (source : String) (config : Config) (directions : σ) {count : Nat}
    (coherent : (new source config directions).Coherent setting)
    (running : ∀ earlier < count, (course source config directions earlier).halt = none) :
    ((new source config directions).runFor count).Retraces (course source config directions) count := by
  induction count with
  | zero =>
    apply new_retraces
    exact (load source config directions).capture_outside.2.1
  | succ count ih =>
    have here := running count (Nat.lt_succ_self count)
    have earlier := ih fun index before => running index (Nat.lt_succ_of_lt before)
    have onward : ((new source config directions).runFor count).proceed.machine =
        course source config directions (count + 1) := by
      rw [course, runFor_succ, (step_outside here).1]
    rw [runFor_succ]
    exact earlier.step (runFor_coherent coherent count) here onward

end Session

end Befunge
