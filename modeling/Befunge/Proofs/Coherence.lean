import Befunge.Proofs.Commands
import Mathlib.Data.List.Chain

/-! The invariant of a session: its record is a chain of single steps that starts
with the loaded program, the cursor lies in the record, and the shared copy of the
playfield is the playfield itself. Numbers of editions only grow along the record,
since a copy is numbered anew whenever one is made. -/
namespace Befunge

/-- What a session starts from, and the headings that reach it from outside. -/
structure Setting where
  source : String
  config : Config
  steering : Heading → Prop
  answers : Heading → Prop

namespace Setting

def Heads (setting : Setting) (machine : Machine) (heading : Heading) : Prop :=
  heading = machine.pointer.heading ∨ setting.steering heading

def Succeeds (setting : Setting) (before next : Machine) : Prop :=
  before.halt = none ∧ ∃ heading answer, setting.Heads before heading ∧ setting.answers answer ∧
    next = (before.turn heading).step setting.config.stepLimit answer

structure Follows (setting : Setting) (before next : Snapshot) : Prop where
  succeeds : setting.Succeeds before.machine next.machine
  ascending : before.edition ≤ next.edition
  shares : before.edition = next.edition ↔ before.machine.lands setting.config.stepLimit = false

end Setting

/-- Numbers do not fall along the record, and a number comes with one playfield. -/
def Snapshot.Precedes (first second : Snapshot) : Prop :=
  first.edition ≤ second.edition ∧
    (first.edition = second.edition → first.machine.field = second.machine.field)

instance : Trans Snapshot.Precedes Snapshot.Precedes Snapshot.Precedes where
  trans := by
    intro first second third ⟨low, firstField⟩ ⟨high, secondField⟩
    refine ⟨Nat.le_trans low high, ?_⟩
    intro same
    rw [firstField (by omega), secondField (by omega)]

theorem Setting.Follows.precedes {setting : Setting} {before next : Snapshot}
    (follows : setting.Follows before next) : before.Precedes next := by
  refine ⟨follows.ascending, ?_⟩
  intro same
  obtain ⟨_, heading, answer, _, _, stepped⟩ := follows.succeeds
  have afar : (before.machine.turn heading).lands setting.config.stepLimit = false :=
    follows.shares.mp same
  rw [stepped, Machine.step_field afar, Machine.turn_field]

namespace Timeline

/-- A record in good order, of which all editions have numbers below `editions`. -/
structure Chronicle (setting : Setting) (editions : Nat) (timeline : Timeline) : Prop where
  budget : timeline.budget = setting.config.memoryLimit
  balanced : timeline.Balanced
  linked : timeline.snapshots.toList.IsChain setting.Follows
  opening : ∀ first, timeline.snapshots.toList[0]? = some first → first.machine = .load setting.source
  numbered : ∀ snapshot ∈ timeline.snapshots.toList, snapshot.edition < editions

variable {setting : Setting} {editions : Nat} {timeline : Timeline}

theorem Chronicle.follows (chronicle : timeline.Chronicle setting editions) {index : Nat}
    {before next : Snapshot} (found : timeline.snapshots.toList[index]? = some before)
    (foundNext : timeline.snapshots.toList[index + 1]? = some next) : setting.Follows before next := by
  obtain ⟨inside, rfl⟩ := List.getElem?_eq_some_iff.mp foundNext
  obtain ⟨_, rfl⟩ := List.getElem?_eq_some_iff.mp found
  exact List.isChain_iff_getElem.mp chronicle.linked index inside

theorem Chronicle.sorted (chronicle : timeline.Chronicle setting editions) :
    timeline.snapshots.toList.Pairwise Snapshot.Precedes := by
  rw [← List.isChain_iff_pairwise]
  exact chronicle.linked.imp fun _ _ follows => follows.precedes

theorem Chronicle.copy_unique (chronicle : timeline.Chronicle setting editions)
    {first second : Snapshot} (firstIn : first ∈ timeline.snapshots.toList)
    (secondIn : second ∈ timeline.snapshots.toList) (same : first.edition = second.edition) :
    first.copy = second.copy := by
  have symmetric : Std.Symm fun first second : Snapshot =>
      first.edition = second.edition → first.copy = second.copy :=
    ⟨fun _ _ equal same => (equal same.symm).symm⟩
  have equal := chronicle.sorted.imp (S := fun first second : Snapshot =>
    first.edition = second.edition → first.copy = second.copy) (by
      intro first second precedes same
      rw [Snapshot.copy, Snapshot.copy, same, precedes.2 same])
  exact equal.forall_of_forall (fun _ _ _ => rfl) firstIn secondIn same

/-- What steps and set headings keep of a machine holds along the record. -/
theorem Chronicle.upholds {P : Machine → Prop} (chronicle : timeline.Chronicle setting editions)
    (loaded : P (.load setting.source))
    (turned : ∀ machine heading, P machine → P (machine.turn heading))
    (stepped : ∀ machine answer, P machine → P (machine.step setting.config.stepLimit answer))
    {index : Nat} {snapshot : Snapshot}
    (found : timeline.snapshots.toList[index]? = some snapshot) : P snapshot.machine := by
  induction index generalizing snapshot with
  | zero =>
    rw [chronicle.opening snapshot found]
    exact loaded
  | succ index ih =>
    have inside := (List.getElem?_eq_some_iff.mp found).1
    have previous := List.getElem?_eq_getElem (Nat.lt_of_succ_lt inside)
    obtain ⟨_, heading, answer, _, _, next⟩ := (chronicle.follows previous found).succeeds
    rw [next]
    apply stepped
    apply turned
    exact ih previous

theorem empty_chronicle (setting : Setting) (editions : Nat) :
    (empty setting.config.memoryLimit).Chronicle setting editions where
  budget := rfl
  balanced := empty_balanced _
  linked := .nil
  opening first found := by simp [empty] at found
  numbered snapshot member := by simp [empty] at member

theorem Chronicle.grow (chronicle : timeline.Chronicle setting editions) {more : Nat}
    (grown : editions ≤ more) : timeline.Chronicle setting more :=
  {chronicle with
    numbered := fun snapshot member => Nat.lt_of_lt_of_le (chronicle.numbered snapshot member) grown}

theorem Chronicle.truncate (chronicle : timeline.Chronicle setting editions) (count : Nat) :
    (timeline.truncate count).Chronicle setting editions where
  budget := by rw [truncate_budget, chronicle.budget]
  balanced := truncate_balanced chronicle.balanced count
  linked := by
    rw [truncate_snapshots]
    exact chronicle.linked.take count
  opening first found := by
    rw [truncate_snapshots, List.getElem?_take] at found
    split at found
    · exact chronicle.opening first found
    · cases found
  numbered snapshot member := by
    rw [truncate_snapshots] at member
    exact chronicle.numbered snapshot (List.mem_of_mem_take member)

theorem Chronicle.linked_concat (chronicle : timeline.Chronicle setting editions)
    {snapshot : Snapshot} (continues : ∀ last, timeline.snapshots.toList.getLast? = some last →
      setting.Follows last snapshot) :
    (timeline.snapshots.toList ++ [snapshot]).IsChain setting.Follows := by
  rw [List.isChain_append]
  refine ⟨chronicle.linked, .singleton _, ?_⟩
  intro last isLast first isFirst
  obtain rfl : snapshot = first := by simpa using isFirst
  exact continues last isLast

theorem Chronicle.append (chronicle : timeline.Chronicle setting editions) {snapshot : Snapshot}
    (afforded : timeline.usage + timeline.cost snapshot ≤ timeline.budget)
    (number : snapshot.edition < editions)
    (continues : ∀ last, timeline.snapshots.toList.getLast? = some last →
      setting.Follows last snapshot)
    (opens : timeline.snapshots.toList = [] → snapshot.machine = .load setting.source) :
    (timeline.append snapshot).Chronicle setting editions where
  budget := chronicle.budget
  balanced := append_balanced chronicle.balanced afforded
  linked := by
    rw [append_snapshots]
    exact chronicle.linked_concat continues
  opening first found := by
    rw [append_snapshots] at found
    cases listed : timeline.snapshots.toList with
    | nil =>
      rw [listed] at found
      obtain rfl : snapshot = first := by simpa using found
      exact opens listed
    | cons head rest =>
      apply chronicle.opening
      simpa [listed] using found
  numbered other member := by
    rw [append_snapshots, List.mem_append, List.mem_singleton] at member
    rcases member with old | rfl
    · exact chronicle.numbered other old
    · exact number

end Timeline

/-- An edition that agrees with the playfield and with every snapshot of its number. -/
structure Edition.Agrees (edition : Edition) (timeline : Timeline) (field : Playfield)
    (editions : Nat) : Prop where
  number : edition.number < editions
  field : edition.field = field
  copies : ∀ snapshot ∈ timeline.snapshots.toList, snapshot.edition = edition.number →
    snapshot.machine.field = edition.field

namespace Session

variable {σ : Type} [DirectionSource σ]

/-- What holds of a session at any moment, also between a step and its recording. -/
structure Kept (setting : Setting) (session : Session σ) : Prop where
  config : session.config = setting.config
  chronicle : session.timeline.Chronicle setting session.editions
  lent : ∀ edition, session.shared = some edition →
    edition.Agrees session.timeline session.machine.field session.editions
  answered : ∀ number, setting.answers (DirectionSource.answer number session.directions)
  idle : session.config.recordHistory = false → session.timeline.length = 0 ∧ session.truncated = false

/-- What holds of a session between commands. -/
structure Coherent (setting : Setting) (session : Session σ) : Prop extends Kept setting session where
  cursor : 0 < session.timeline.length → session.position < session.timeline.length
  trailing : session.atSnapshot = false → session.position = session.timeline.length - 1
  present : session.atSnapshot = true → ∃ snapshot heading,
    session.timeline.snapshots.toList[session.position]? = some snapshot ∧
    setting.Heads snapshot.machine heading ∧ session.machine = snapshot.machine.turn heading ∧
    session.shared = some snapshot.copy
  recording : session.config.recordHistory = true →
    session.atSnapshot = true ∨ session.truncated = true

/-- What holds of a session whose machine has just reached a new state. -/
structure Due (setting : Setting) (session : Session σ) : Prop extends Kept setting session where
  trailing : session.position = session.timeline.length - 1
  continues : session.config.recordHistory = true → session.truncated = false →
    ∀ last, session.timeline.snapshots.toList.getLast? = some last →
      setting.Succeeds last.machine session.machine ∧
      session.shared =
        if last.machine.lands setting.config.stepLimit then none else some last.copy
  opens : session.config.recordHistory = true → session.truncated = false →
    session.timeline.snapshots.toList = [] → session.machine = .load setting.source

variable {setting : Setting} {session : Session σ}

theorem Coherent.attached (coherent : session.Coherent setting)
    (recording : session.config.recordHistory = true) (room : session.truncated = false) :
    session.atSnapshot = true := by
  rcases coherent.recording recording with attached | full
  · exact attached
  · cases room.symm.trans full

/-- Only a session that records has a record or has stopped recording. -/
theorem Kept.records (kept : session.Kept setting)
    (active : 0 < session.timeline.length ∨ session.truncated = true) :
    setting.config.recordHistory = true := by
  by_contra off
  rw [← kept.config, Bool.not_eq_true] at off
  obtain ⟨nothing, room⟩ := kept.idle off
  rcases active with filled | full
  · omega
  · cases room.symm.trans full

section Capture

variable {edition : Edition} {editions : Nat}

omit [DirectionSource σ] in
theorem Issued.le (issued : session.Issued edition editions) : session.editions ≤ editions := by
  cases issued with
  | shared => exact Nat.le_refl _
  | fresh => exact Nat.le_succ _

theorem Issued.agrees (issued : session.Issued edition editions) (kept : session.Kept setting) :
    edition.Agrees session.timeline session.machine.field editions := by
  cases issued with
  | shared _ present => exact kept.lent edition present
  | fresh absent =>
    refine ⟨Nat.lt_succ_self _, rfl, ?_⟩
    intro snapshot member same
    exact absurd same (Nat.ne_of_lt (kept.chronicle.numbered snapshot member))

theorem Issued.draft_eq (issued : session.Issued edition editions) (kept : session.Kept setting) :
    session.draft edition = ⟨session.machine, edition.number⟩ := by
  rw [draft, (issued.agrees kept).field]

/-- The new snapshot follows the last one. It shares its edition unless the step
between them was a put that landed, and then it has a greater number. -/
theorem Issued.follows (issued : session.Issued edition editions) (due : session.Due setting)
    (recording : session.config.recordHistory = true) (room : session.truncated = false)
    {last : Snapshot} (isLast : session.timeline.snapshots.toList.getLast? = some last) :
    setting.Follows last (session.draft edition) := by
  obtain ⟨succeeds, shared⟩ := due.continues recording room last isLast
  rw [issued.draft_eq due.toKept]
  cases issued with
  | shared _ present =>
    rw [present] at shared
    cases landed : last.machine.lands setting.config.stepLimit with
    | true => simp [landed] at shared
    | false =>
      obtain rfl : edition = last.copy := by simpa [landed] using shared
      exact ⟨succeeds, Nat.le_refl _, by simp [landed, Snapshot.copy]⟩
  | fresh absent =>
    rw [absent] at shared
    have landed : last.machine.lands setting.config.stepLimit = true := by
      cases landed : last.machine.lands setting.config.stepLimit with
      | true => rfl
      | false => simp [landed] at shared
    have older := due.chronicle.numbered last (List.mem_of_getLast? isLast)
    exact ⟨succeeds, Nat.le_of_lt older, by simp [landed, Nat.ne_of_lt older]⟩

theorem Kept.reissue (kept : session.Kept setting) (issued : session.Issued edition editions)
    (atSnapshot truncated : Bool) (recording : session.config.recordHistory = true) :
    {session with atSnapshot, truncated, shared := some edition, editions}.Kept setting where
  config := kept.config
  chronicle := kept.chronicle.grow issued.le
  lent other same := by
    obtain rfl : edition = other := Option.some.inj same
    exact issued.agrees kept
  answered := kept.answered
  idle off := by
    have contradictory := recording.symm.trans off
    cases contradictory

private theorem Due.cursor (due : session.Due setting) (filled : 0 < session.timeline.length) :
    session.position < session.timeline.length := by
  have trailing := due.trailing
  omega

private theorem Due.skip (due : session.Due setting)
    (idle : session.config.recordHistory = false ∨ session.truncated = true) :
    {session with atSnapshot := false}.Coherent setting where
  config := due.config
  chronicle := due.chronicle
  lent := due.lent
  answered := due.answered
  idle := due.idle
  cursor := due.cursor
  trailing _ := due.trailing
  present attached := by cases attached
  recording on := by
    rcases idle with off | full
    · cases off.symm.trans on
    · exact .inr full

private theorem Due.refuse (due : session.Due setting) (issued : session.Issued edition editions)
    (recording : session.config.recordHistory = true) :
    {session with
      atSnapshot := false
      truncated := true
      shared := some edition
      editions}.Coherent setting where
  toKept := due.toKept.reissue issued false true recording
  cursor := due.cursor
  trailing _ := due.trailing
  present attached := by cases attached
  recording _ := .inr rfl

private theorem Due.record (due : session.Due setting) (issued : session.Issued edition editions)
    (recording : session.config.recordHistory = true) (room : session.truncated = false)
    (afforded : session.timeline.usage + session.timeline.cost (session.draft edition) ≤
      session.timeline.budget) :
    {session with
      timeline := session.timeline.append (session.draft edition)
      position := session.timeline.length
      atSnapshot := true
      shared := some edition
      editions}.Coherent setting where
  config := due.config
  chronicle := by
    apply (due.chronicle.grow issued.le).append afforded
    · exact (issued.agrees due.toKept).number
    · intro last isLast
      exact issued.follows due recording room isLast
    · intro empty
      rw [issued.draft_eq due.toKept]
      exact due.opens recording room empty
  lent other same := by
    obtain rfl : edition = other := Option.some.inj same
    have agrees := issued.agrees due.toKept
    refine ⟨agrees.number, agrees.field, ?_⟩
    intro snapshot member number
    rw [Timeline.append_snapshots, List.mem_append, List.mem_singleton] at member
    rcases member with old | rfl
    · exact agrees.copies snapshot old number
    · rfl
  answered := due.answered
  idle off := by cases recording.symm.trans off
  cursor _ := by simp [Timeline.length_eq]
  trailing detached := by cases detached
  present _ := by
    refine ⟨session.draft edition, session.machine.pointer.heading, ?_, .inl rfl, ?_, ?_⟩
    · simp [Timeline.length_eq]
    · rw [issued.draft_eq due.toKept]
      rfl
    · rfl
  recording _ := .inl rfl

theorem Due.capture (due : session.Due setting) : session.capture.Coherent setting := by
  have captured := session.capture_captured
  generalize session.capture = next at captured
  cases captured with
  | skipped idle => exact due.skip idle
  | recorded edition editions issued recording room afforded =>
    exact due.record issued recording room afforded
  | refused edition editions issued recording room expensive => exact due.refuse issued recording

end Capture

theorem load_due (directions : σ)
    (answered : ∀ number, setting.answers (DirectionSource.answer number directions)) :
    (load setting.source setting.config directions).Due setting where
  config := rfl
  chronicle := Timeline.empty_chronicle setting 0
  lent edition shared := by cases shared
  answered := answered
  idle _ := ⟨rfl, rfl⟩
  trailing := rfl
  continues _ _ last found := by cases found
  opens _ _ _ := rfl

theorem new_coherent (directions : σ)
    (answered : ∀ number, setting.answers (DirectionSource.answer number directions)) :
    (new setting.source setting.config directions).Coherent setting :=
  (load_due directions answered).capture

section Stepping

private theorem Coherent.resume (coherent : session.Coherent setting)
    (attached : session.atSnapshot = true) (later : session.position < session.timeline.length) :
    {session with
      timeline := session.timeline.truncate (session.position + 1)
      truncated := false}.Coherent setting where
  config := coherent.config
  chronicle := coherent.chronicle.truncate _
  lent edition shared := by
    obtain ⟨number, field, copies⟩ := coherent.lent edition shared
    refine ⟨number, field, ?_⟩
    intro snapshot member
    rw [Timeline.truncate_snapshots] at member
    exact copies snapshot (List.mem_of_mem_take member)
  answered := coherent.answered
  idle off := by
    have none := (coherent.idle off).1
    omega
  cursor _ := by
    rw [Timeline.length_eq, Timeline.truncate_snapshots, List.length_take]
    change session.position < min _ session.timeline.length
    omega
  trailing detached := by cases attached.symm.trans detached
  present _ := by
    obtain ⟨snapshot, heading, found, heads, machine, shared⟩ := coherent.present attached
    refine ⟨snapshot, heading, ?_, heads, machine, shared⟩
    rw [Timeline.truncate_snapshots, List.getElem?_take_of_lt (Nat.lt_succ_self _)]
    exact found
  recording _ := .inl attached

/-- Giving up the later part of the record leaves the cursor at its end. -/
theorem forgetLater_coherent (coherent : session.Coherent setting) :
    session.forgetLater.Coherent setting ∧
      (session.forgetLater.atSnapshot = true →
        session.forgetLater.position + 1 = session.forgetLater.timeline.length) := by
  unfold forgetLater
  split
  · rename_i middle
    simp only [Bool.and_eq_true, decide_eq_true_eq] at middle
    obtain ⟨attached, later⟩ := middle
    refine ⟨coherent.resume attached (by omega), fun _ => ?_⟩
    rw [Timeline.length_eq, Timeline.truncate_snapshots, List.length_take]
    exact (Nat.min_eq_left (Nat.le_of_lt later)).symm
  · rename_i last
    refine ⟨coherent, ?_⟩
    intro attached
    simp only [attached, Bool.true_and, decide_eq_true_eq] at last
    have filled : 0 < session.timeline.length := by
      obtain ⟨snapshot, _, found, _⟩ := coherent.present attached
      have inside := (List.getElem?_eq_some_iff.mp found).1
      rw [Timeline.length_eq]
      omega
    have cursor := coherent.cursor filled
    omega

theorem proceed_kept (kept : session.Kept setting) : session.proceed.Kept setting := by
  obtain ⟨answer, directions, proceeded, drawn⟩ := session.proceed_eq
  rw [proceeded]
  exact {
    config := kept.config
    chronicle := kept.chronicle
    lent := by
      intro edition shared
      cases landed : session.machine.lands session.config.stepLimit with
      | true => simp [landed] at shared
      | false =>
        simp only [landed, Bool.false_eq_true, if_false] at shared
        obtain ⟨number, field, copies⟩ := kept.lent edition shared
        exact ⟨number, field.trans (Machine.step_field landed answer).symm, copies⟩
    answered := by
      intro number
      rcases drawn with ⟨_, next⟩ | ⟨_, same⟩
      · have later := kept.answered (number + 1)
        rwa [DirectionSource.answer, ← next] at later
      · rw [same]
        exact kept.answered number
    idle := kept.idle }

/-- The machine steps with an answer that its source may give, even if it asks for
none. -/
theorem proceed_machine (kept : session.Kept setting) : ∃ answer, setting.answers answer ∧
    session.proceed.machine = session.machine.step setting.config.stepLimit answer := by
  obtain ⟨answer, directions, proceeded, drawn⟩ := session.proceed_eq
  have first := kept.answered 0
  rw [DirectionSource.answer] at first
  rw [proceeded, ← kept.config]
  rcases drawn with ⟨_, next⟩ | ⟨quiet, _⟩
  · rw [← next] at first
    exact ⟨answer, first, rfl⟩
  · exact ⟨_, first, Machine.step_answer quiet _ _⟩

theorem proceed_due (coherent : session.Coherent setting) (running : session.machine.halt = none)
    (latest : session.atSnapshot = true → session.position + 1 = session.timeline.length) :
    session.proceed.Due setting := by
  obtain ⟨answer, answers, machine⟩ := proceed_machine coherent.toKept
  have kept := proceed_kept coherent.toKept
  obtain ⟨_, directions, proceeded, _⟩ := session.proceed_eq
  have position : session.proceed.position = session.position := by rw [proceeded]
  have timeline : session.proceed.timeline = session.timeline := by rw [proceeded]
  have truncated : session.proceed.truncated = session.truncated := by rw [proceeded]
  have config : session.proceed.config = session.config := by rw [proceeded]
  have shared : session.proceed.shared =
      if session.machine.lands setting.config.stepLimit then none else session.shared := by
    rw [proceeded, ← coherent.config]
  refine {kept with trailing := ?_, continues := ?_, opens := ?_}
  · rw [position, timeline]
    cases attached : session.atSnapshot with
    | true =>
      have latest := latest attached
      omega
    | false => exact coherent.trailing attached
  · rw [config, truncated, timeline]
    intro on room last isLast
    obtain ⟨snapshot, heading, found, heads, before, sharing⟩ :=
      coherent.present (coherent.attached on room)
    have latest := latest (coherent.attached on room)
    obtain rfl : snapshot = last := by
      rw [List.getLast?_eq_getElem?, ← Timeline.length_eq, ← latest, Nat.add_sub_cancel] at isLast
      exact Option.some.inj (found.symm.trans isLast)
    refine ⟨⟨?_, heading, answer, heads, answers, ?_⟩, ?_⟩
    · rw [before, Machine.turn_halt] at running
      exact running
    · rw [machine, before]
    · rw [shared, before, Machine.lands_turn, sharing]
  · rw [config, truncated, timeline]
    intro on room empty
    have latest := latest (coherent.attached on room)
    rw [Timeline.length_eq, empty] at latest
    cases latest

theorem step_due (coherent : session.Coherent setting) (running : session.machine.halt = none) :
    session.forgetLater.proceed.Due setting := by
  obtain ⟨resumed, latest⟩ := forgetLater_coherent coherent
  apply proceed_due resumed _ latest
  rw [forgetLater_machine, running]

theorem step_coherent (coherent : session.Coherent setting) (running : session.machine.halt = none) :
    session.step.Coherent setting := by
  rw [step_of_running running]
  exact (step_due coherent running).capture

end Stepping

section Restoring

/-- Leaving the playfield as it is when the snapshot holds the shared copy comes to
the same as copying it. -/
theorem adopt_eq (kept : session.Kept setting) {snapshot : Snapshot}
    (member : snapshot ∈ session.timeline.snapshots.toList) :
    session.adopt snapshot =
      {session with machine := snapshot.machine, shared := some snapshot.copy} := by
  unfold adopt
  split
  · rename_i same
    obtain ⟨edition, shared, number⟩ := (Option.any_eq_true _ _).mp same
    have agrees := kept.lent edition shared
    have number : snapshot.edition = edition.number := (beq_iff_eq.mp number).symm
    have field := agrees.copies snapshot member number
    have copy : snapshot.copy = edition := by rw [Snapshot.copy, number, field]
    rw [copy, ← shared, ← agrees.field, ← field]
  · rfl

theorem restore_coherent (coherent : session.Coherent setting) {index : Nat} {next : Session σ}
    (restored : session.restore index = .ok next) : next.Coherent setting := by
  obtain ⟨snapshot, found, rfl⟩ := restore_ok restored
  have member := List.mem_of_getElem? found
  have inside := (List.getElem?_eq_some_iff.mp found).1
  rw [adopt_eq coherent.toKept member]
  exact {
    config := coherent.config
    chronicle := coherent.chronicle
    lent := by
      intro edition shared
      obtain rfl : snapshot.copy = edition := Option.some.inj shared
      refine ⟨coherent.chronicle.numbered snapshot member, rfl, ?_⟩
      intro other present number
      exact congrArg Edition.field (coherent.chronicle.copy_unique present member number)
    answered := coherent.answered
    idle := coherent.idle
    cursor := fun _ => inside
    trailing := by intro detached; cases detached
    present := fun _ => ⟨snapshot, snapshot.machine.pointer.heading, found, .inl rfl, rfl, rfl⟩
    recording := fun _ => .inl rfl }

end Restoring

theorem setHeading_coherent (coherent : session.Coherent setting) {heading : Heading}
    (steering : setting.steering heading) : (session.setHeading heading).Coherent setting where
  config := coherent.config
  chronicle := coherent.chronicle
  lent := coherent.lent
  answered := coherent.answered
  idle := coherent.idle
  cursor := coherent.cursor
  trailing := coherent.trailing
  present attached := by
    obtain ⟨snapshot, _, found, _, machine, shared⟩ := coherent.present attached
    refine ⟨snapshot, heading, found, .inr steering, ?_, shared⟩
    rw [setHeading, machine, Machine.turn_turn]
  recording := coherent.recording

theorem runFor_coherent (coherent : session.Coherent setting) (count : Nat) :
    (session.runFor count).Coherent setting :=
  runFor_preserves (fun _ running coherent => step_coherent coherent running) count coherent

theorem after_coherent {commands : List Command}
    (steering : ∀ heading, .setHeading heading ∈ commands → setting.steering heading)
    (coherent : session.Coherent setting) : (session.after commands).Coherent setting := by
  apply after_preserves _ _ _ coherent
  · intro session running coherent
    exact step_coherent coherent running
  · intro session index next restored coherent
    exact restore_coherent coherent restored
  · intro session heading member coherent
    exact setHeading_coherent coherent (steering heading member)

end Session

namespace Session

variable {σ : Type} [DirectionSource σ]

def setting (source : String) (config : Config) (directions : σ) (commands : List Command) :
    Setting where
  source
  config
  steering heading := .setHeading heading ∈ commands
  answers heading := ∃ number, DirectionSource.answer number directions = heading

theorem new_in_setting (source : String) (config : Config) (directions : σ) (commands : List Command) :
    (new source config directions).Coherent (setting source config directions commands) :=
  new_coherent directions fun number => ⟨number, rfl⟩

theorem new_after_coherent (source : String) (config : Config) (directions : σ)
    (commands : List Command) : ((new source config directions).after commands).Coherent
      (setting source config directions commands) := by
  apply after_coherent
  · intro heading member
    exact member
  · exact new_in_setting source config directions commands

/-- What steps and set headings keep of a machine holds of a session and of all that it
has recorded. -/
theorem new_after_upholds {P : Machine → Prop} (source : String) (config : Config) (directions : σ)
    (commands : List Command) (loaded : P (.load source))
    (turned : ∀ machine heading, P machine → P (machine.turn heading))
    (stepped : ∀ machine answer, P machine → P (machine.step config.stepLimit answer)) :
    let session := (new source config directions).after commands
    P session.machine ∧ ∀ snapshot ∈ session.timeline.snapshots.toList, P snapshot.machine := by
  let setting := setting source config directions commands
  have recorded {session : Session σ} (coherent : session.Coherent setting)
      (snapshot : Snapshot) (member : snapshot ∈ session.timeline.snapshots.toList) :
      P snapshot.machine := by
    obtain ⟨index, found⟩ := List.mem_iff_getElem?.mp member
    exact coherent.chronicle.upholds loaded turned stepped found
  suffices holds : ((new source config directions).after commands).Coherent setting ∧
      P ((new source config directions).after commands).machine from
    ⟨holds.2, recorded holds.1⟩
  apply after_preserves (P := fun session => session.Coherent setting ∧ P session.machine)
  · rintro session running ⟨coherent, holds⟩
    refine ⟨step_coherent coherent running, ?_⟩
    obtain ⟨answer, _, machine⟩ := proceed_machine coherent.toKept
    rw [(step_outside running).1, machine]
    exact stepped _ _ holds
  · rintro session index next restored ⟨coherent, _⟩
    refine ⟨restore_coherent coherent restored, ?_⟩
    obtain ⟨snapshot, found, rfl⟩ := restore_ok restored
    have member := List.mem_of_getElem? found
    rw [adopt_eq coherent.toKept member]
    exact recorded coherent snapshot member
  · rintro session heading member ⟨coherent, holds⟩
    exact ⟨setHeading_coherent coherent member, turned _ _ holds⟩
  · refine ⟨new_in_setting source config directions commands, ?_⟩
    rw [new, (load source config directions).capture_outside.2.1]
    exact loaded

end Session

end Befunge
