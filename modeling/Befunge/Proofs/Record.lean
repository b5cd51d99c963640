import Befunge.Proofs.Coherence
import Mathlib.Algebra.BigOperators.Group.Finset.Basic
import Mathlib.Algebra.Ring.Nat

/-! What the record of a session says about its execution, and what it is charged
for. Both are read off the coherence of sessions. -/
namespace Befunge

namespace Session

variable {σ : Type} [DirectionSource σ]

/-- Whether the heading is one set by hand after a command. A step of a running
machine and a navigation that succeeds settle the heading. -/
def steers (session : Session σ) (steered : Bool) (command : Command) : Bool :=
  if command.advances then steered && session.machine.halt.isSome
  else if command.navigates then steered && (session.perform command).1 != .done
  else true

def steered (session : Session σ) (before : Bool) : List Command → Bool
  | [] => before
  | command :: commands =>
    (session.perform command).2.steered (session.steers before command) commands

/-- The machine is exactly in the state of the snapshot it is said to be at. -/
def Pinned (session : Session σ) : Prop :=
  session.atSnapshot = true → ∃ snapshot,
    session.timeline.snapshots.toList[session.position]? = some snapshot ∧
    session.machine = snapshot.machine

section Pinning

variable {setting : Setting} {session : Session σ}

theorem Due.pinned (due : session.Due setting) : session.capture.Pinned := by
  have captured := session.capture_captured
  generalize session.capture = next at captured
  intro attached
  cases captured with
  | skipped idle => cases attached
  | recorded edition editions issued recording room afforded =>
    refine ⟨session.draft edition, ?_, ?_⟩
    · simp [Timeline.length_eq]
    · rw [issued.draft_eq due.toKept]
  | refused edition editions issued recording room expensive => cases attached

theorem step_pinned (coherent : session.Coherent setting) (running : session.machine.halt = none) :
    session.step.Pinned := by
  rw [step_of_running running]
  exact (step_due coherent running).pinned

theorem restore_pinned (coherent : session.Coherent setting) {index : Nat} {next : Session σ}
    (restored : session.restore index = .ok next) : next.Pinned := by
  obtain ⟨snapshot, found, rfl⟩ := restore_ok restored
  intro _
  rw [adopt_eq coherent.toKept (List.mem_of_getElem? found)]
  exact ⟨snapshot, found, rfl⟩

theorem perform_pinned (coherent : session.Coherent setting) {before : Bool} {command : Command}
    (pinned : before = false → session.Pinned) (settled : session.steers before command = false) :
    (session.perform command).2.Pinned := by
  have performed := session.perform_performed command
  unfold steers at settled
  generalize session.perform command = outcome at performed settled
  cases performed with
  | idle advances halted reply =>
    apply pinned
    simpa [advances, Option.isSome_iff_ne_none.mpr halted] using settled
  | advanced advances running count reply =>
    have stepped : session.step.Coherent setting ∧ session.step.Pinned :=
      ⟨step_coherent coherent running, step_pinned coherent running⟩
    refine (runFor_preserves (P := fun session => session.Coherent setting ∧ session.Pinned)
      ?_ count stepped).2
    rintro session running ⟨coherent, _⟩
    exact ⟨step_coherent coherent running, step_pinned coherent running⟩
  | restored navigates found => exact restore_pinned coherent found
  | failed navigates error =>
    apply pinned
    simpa [navigates, Command.not_advances navigates] using settled
  | turned heading => simp [Command.advances, Command.navigates] at settled

theorem after_pinned (coherent : session.Coherent setting) {before : Bool} {commands : List Command}
    (steering : ∀ heading, .setHeading heading ∈ commands → setting.steering heading)
    (pinned : before = false → session.Pinned) (settled : session.steered before commands = false) :
    (session.after commands).Pinned := by
  induction commands generalizing session before with
  | nil => exact pinned settled
  | cons command commands ih =>
    rw [after_cons]
    have later : ∀ heading, .setHeading heading ∈ commands → setting.steering heading :=
      fun heading member => steering heading (List.mem_cons_of_mem _ member)
    have now : (session.after [command]).Coherent setting := by
      refine after_coherent ?_ coherent
      intro heading member
      rw [List.mem_singleton] at member
      exact steering heading (member ▸ List.mem_cons_self)
    exact ih now later (fun calm => perform_pinned coherent pinned calm) settled

end Pinning

end Session

section Numbering

variable {setting : Setting}

theorem Setting.Succeeds.halts {before next : Machine} (succeeds : setting.Succeeds before next) :
    next.halt = none ∧ next.steps = before.steps + 1 ∨
      next.halt ≠ none ∧ next.steps = before.steps := by
  obtain ⟨running, heading, answer, _, _, rfl⟩ := succeeds
  cases decided : (before.turn heading).verdict setting.config.stepLimit with
  | none =>
    left
    rw [Machine.step_of_running decided, Machine.cycle_halt, Machine.cycle_steps]
    exact ⟨running, rfl⟩
  | some halt =>
    right
    rw [Machine.step_of_verdict decided]
    exact ⟨by simp, rfl⟩

namespace Timeline

variable {editions : Nat} {timeline : Timeline}

/-- A running snapshot has made as many steps as its place in the record says. Only the
last snapshot may be halted, and halting is no step. -/
theorem Chronicle.steps (chronicle : timeline.Chronicle setting editions) {index : Nat}
    {snapshot : Snapshot} (found : timeline.snapshots.toList[index]? = some snapshot) :
    (snapshot.machine.halt = none → snapshot.machine.steps = index) ∧
      (snapshot.machine.halt ≠ none →
        index + 1 = timeline.snapshots.toList.length ∧ snapshot.machine.steps + 1 = index) := by
  have inside := (List.getElem?_eq_some_iff.mp found).1
  have last (halted : snapshot.machine.halt ≠ none) :
      index + 1 = timeline.snapshots.toList.length := by
    by_contra later
    have bound : index + 1 < timeline.snapshots.toList.length := by omega
    have follows := chronicle.follows found (List.getElem?_eq_getElem bound)
    exact halted follows.succeeds.1
  induction index generalizing snapshot with
  | zero =>
    have loaded := chronicle.opening snapshot found
    rw [loaded]
    exact ⟨fun _ => rfl, fun halted => absurd rfl halted⟩
  | succ index ih =>
    have bound : index < timeline.snapshots.toList.length := by omega
    have previous := List.getElem?_eq_getElem bound
    have follows := chronicle.follows previous found
    have running := follows.succeeds.1
    have counted := (ih previous bound fun halted => absurd running halted).1 running
    rcases follows.succeeds.halts with ⟨none, steps⟩ | ⟨halted, steps⟩
    · exact ⟨fun _ => by rw [steps, counted], fun halted => absurd none halted⟩
    · exact ⟨fun none => absurd none halted, fun _ => ⟨last halted, by rw [steps, counted]⟩⟩

theorem Chronicle.edition_le (chronicle : timeline.Chronicle setting editions) {low high : Nat}
    {first second : Snapshot} (foundFirst : timeline.snapshots.toList[low]? = some first)
    (foundSecond : timeline.snapshots.toList[high]? = some second) (order : low ≤ high) :
    first.edition ≤ second.edition := by
  obtain ⟨_, rfl⟩ := List.getElem?_eq_some_iff.mp foundFirst
  obtain ⟨_, rfl⟩ := List.getElem?_eq_some_iff.mp foundSecond
  rcases Nat.lt_or_eq_of_le order with before | rfl
  · exact (List.pairwise_iff_getElem.mp chronicle.sorted _ _ _ _ before).1
  · exact Nat.le_refl _

private theorem charge_eq (snapshots : List Snapshot) (last : Snapshot)
    (sorted : (snapshots ++ [last]).Pairwise Snapshot.Precedes) :
    charge snapshots.getLast? last = last.machine.footprint +
      if last.copy ∈ snapshots.map Snapshot.copy then 0 else last.machine.field.footprint := by
  cases found : snapshots.getLast? with
  | none =>
    rw [List.getLast?_eq_none_iff] at found
    simp [found, charge]
  | some previous =>
    obtain ⟨front, rfl⟩ := List.getLast?_eq_some_iff.mp found
    obtain ⟨old, _, later⟩ := List.pairwise_append.mp sorted
    have toLast := later previous (by simp) last (by simp)
    have same : previous.edition = last.edition ↔
        last.copy ∈ (front ++ [previous]).map Snapshot.copy := by
      constructor
      · intro same
        refine List.mem_map.mpr ⟨previous, by simp, ?_⟩
        rw [Snapshot.copy, Snapshot.copy, same, toLast.2 same]
      · intro member
        obtain ⟨holder, inside, copy⟩ := List.mem_map.mp member
        have number : holder.edition = last.edition := congrArg Edition.number copy
        have below : holder.edition ≤ previous.edition := by
          rcases List.mem_append.mp inside with early | isPrevious
          · exact ((List.pairwise_append.mp old).2.2 holder early previous (by simp)).1
          · rw [List.mem_singleton.mp isPrevious]
        have above := toLast.1
        omega
    rw [charge, Option.any_some]
    simp only [beq_iff_eq, same]

/-- In an ordered record every edition is charged once, with its first snapshot. -/
theorem total_eq_sum (snapshots : List Snapshot) (sorted : snapshots.Pairwise Snapshot.Precedes) :
    total none snapshots = (snapshots.map fun snapshot => snapshot.machine.footprint).sum +
      ∑ copy ∈ (snapshots.map Snapshot.copy).toFinset, copy.field.footprint := by
  induction snapshots using List.reverseRecOn with
  | nil => rfl
  | append_singleton snapshots last ih =>
    have copies : ((snapshots ++ [last]).map Snapshot.copy).toFinset =
        insert last.copy (snapshots.map Snapshot.copy).toFinset := by
      ext copy
      simp [eq_comm]
    rw [total_concat, Option.or_none, charge_eq snapshots last sorted,
      ih (List.pairwise_append.mp sorted).1, copies, List.map_append, List.sum_append]
    by_cases known : last.copy ∈ snapshots.map Snapshot.copy
    · rw [if_pos known, Finset.insert_eq_of_mem (List.mem_toFinset.mpr known)]
      simp only [List.map_cons, List.map_nil, List.sum_singleton]
      omega
    · rw [if_neg known, Finset.sum_insert (by rwa [List.mem_toFinset])]
      simp only [List.map_cons, List.map_nil, List.sum_singleton]
      change _ + (_ + last.copy.field.footprint) = _
      omega

end Timeline

end Numbering

namespace Session

variable {σ : Type} [DirectionSource σ]

/-- The record of a session is the history of an execution: neighbours are one step
apart, running snapshots are numbered by their steps, and the cursor marks the
snapshot that the machine is at, or the last one if the machine has run on. -/
theorem record_tracks_execution (source : String) (config : Config) (directions : σ)
    (commands : List Command) :
    let start := Session.new source config directions
    let session := start.after commands
    let snapshots := session.timeline.snapshots
    (∀ (index : Nat) (before next : Snapshot), snapshots[index]? = some before →
      snapshots[index + 1]? = some next →
      before.machine.halt = none ∧ ∃ heading number,
        (heading = before.machine.pointer.heading ∨ .setHeading heading ∈ commands) ∧
        ((before.machine.verdict config.stepLimit = none ∧ next.machine =
            (before.machine.turn heading).cycle (DirectionSource.answer number directions)) ∨
          ∃ halt, before.machine.verdict config.stepLimit = some halt ∧
            next.machine = {before.machine.turn heading with halt := some halt})) ∧
    (∀ (index : Nat) (snapshot : Snapshot), snapshots[index]? = some snapshot →
      (snapshot.machine.halt = none → snapshot.machine.steps = index) ∧
      (snapshot.machine.halt ≠ none →
        index + 1 = snapshots.size ∧ snapshot.machine.steps + 1 = index)) ∧
    (0 < snapshots.size → session.position < snapshots.size) ∧
    (session.atSnapshot = false → session.position = snapshots.size - 1) ∧
    (session.atSnapshot = true → ∃ snapshot, snapshots[session.position]? = some snapshot ∧
      session.machine = snapshot.machine.turn session.machine.pointer.heading ∧
      (start.steered false commands = false → session.machine = snapshot.machine)) := by
  intro start session snapshots
  have coherent := new_after_coherent source config directions commands
  change session.Coherent _ at coherent
  refine ⟨?_, ?_, coherent.cursor, coherent.trailing, ?_⟩
  · intro index before next found foundNext
    rw [← Array.getElem?_toList] at found foundNext
    obtain ⟨running, heading, answer, heads, ⟨number, rfl⟩, stepped⟩ :=
      (coherent.chronicle.follows found foundNext).succeeds
    refine ⟨running, heading, number, heads, ?_⟩
    rw [← Machine.verdict_turn _ heading]
    cases decided : (before.machine.turn heading).verdict config.stepLimit with
    | none => exact .inl ⟨rfl, stepped.trans (Machine.step_of_running decided _)⟩
    | some halt => exact .inr ⟨halt, rfl, stepped.trans (Machine.step_of_verdict decided _)⟩
  · intro index snapshot found
    rw [← Array.getElem?_toList] at found
    exact coherent.chronicle.steps found
  · intro attached
    obtain ⟨snapshot, heading, found, _, machine, _⟩ := coherent.present attached
    refine ⟨snapshot, Array.getElem?_toList.symm.trans found, ?_, ?_⟩
    · rw [machine, Machine.turn_heading]
    · intro settled
      have due : (load source config directions).Due (setting source config directions commands) :=
        load_due directions fun number => ⟨number, rfl⟩
      have pinned := after_pinned due.capture (fun _ member => member) (fun _ => due.pinned) settled
      obtain ⟨same, foundSame, equal⟩ := pinned attached
      obtain rfl : snapshot = same := Option.some.inj (found.symm.trans foundSame)
      exact equal

/-- The usage of a session counts every snapshot and, once each, the editions of the
playfield that the snapshots share. Neighbours share one unless a put has landed
between them. -/
theorem usage_counts_editions_once (source : String) (config : Config) (directions : σ)
    (commands : List Command) :
    let session := (Session.new source config directions).after commands
    let snapshots := session.timeline.snapshots
    (∀ (low middle high : Nat) (first second third : Snapshot), low ≤ middle → middle ≤ high →
      snapshots[low]? = some first → snapshots[middle]? = some second →
      snapshots[high]? = some third → first.edition = third.edition →
      second.edition = first.edition) ∧
    (∀ first ∈ snapshots, ∀ second ∈ snapshots, first.edition = second.edition →
      first.machine.field = second.machine.field) ∧
    (∀ (index : Nat) (before next : Snapshot), snapshots[index]? = some before →
      snapshots[index + 1]? = some next →
      (before.edition = next.edition ↔ ¬ (before.machine.verdict config.stepLimit = none ∧
        before.machine.stringMode = false ∧ before.machine.symbol = 'p' ∧
        (Text.ofCode? before.machine.stack.drop.drop.peek).isSome ∧
        before.machine.field.contains before.machine.stack.drop.peek before.machine.stack.peek))) ∧
    session.timeline.usage =
      (snapshots.toList.map fun snapshot =>
        96 + 8 * snapshot.machine.stack.depth + snapshot.machine.output.text.utf8ByteSize).sum +
      ∑ copy ∈ (snapshots.toList.map Snapshot.copy).toFinset,
        (4 * copy.field.width * copy.field.height + 16 * copy.field.modifiedCells.length) ∧
    session.timeline.usage ≤ config.memoryLimit := by
  intro session snapshots
  have coherent := new_after_coherent source config directions commands
  change session.Coherent _ at coherent
  have chronicle := coherent.chronicle
  refine ⟨?_, ?_, ?_, ?_, ?_⟩
  · intro low middle high first second third order orderNext found foundNext foundLast same
    rw [← Array.getElem?_toList] at found foundNext foundLast
    have below := chronicle.edition_le found foundNext order
    have above := chronicle.edition_le foundNext foundLast orderNext
    omega
  · intro first firstIn second secondIn same
    have copies := chronicle.copy_unique firstIn.val secondIn.val same
    exact congrArg Edition.field copies
  · intro index before next found foundNext
    rw [← Array.getElem?_toList] at found foundNext
    rw [(chronicle.follows found foundNext).shares, ← Bool.not_eq_true, Machine.lands_iff]
    rfl
  · rw [chronicle.balanced.charged, Timeline.total_eq_sum _ chronicle.sorted]
    simp only [← Playfield.modifiedCount_eq_length]
    rfl
  · have within := chronicle.balanced.affordable
    rwa [chronicle.budget] at within

end Session

end Befunge
