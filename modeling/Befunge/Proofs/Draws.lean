import Befunge.Proofs.Recording

/-! Headings are drawn from a source one at a time, each by a cycle that asks for one. How
many there were and what they were is all that a session depends on its source for. -/
namespace Befunge

namespace DirectionSource

variable {σ τ : Type} [DirectionSource σ] [DirectionSource τ]

theorem take_add (first second : Nat) (source : σ) :
    (take (first + second) source).2 = (take second (take first source).2).2 := by
  induction first generalizing source with
  | zero => rw [Nat.zero_add]; rfl
  | succ first ih =>
    rw [Nat.add_right_comm]
    exact ih (next source).2

theorem answer_take (first second : Nat) (source : σ) :
    answer second (take first source).2 = answer (first + second) source := by
  induction first generalizing source with
  | zero => rw [Nat.zero_add]; rfl
  | succ first ih =>
    rw [Nat.add_right_comm]
    exact ih (next source).2

/-- The sources give the same first answers. -/
def Agree (count : Nat) (first : σ) (second : τ) : Prop :=
  ∀ number < count, answer number second = answer number first

theorem Agree.of_le {few many : Nat} {first : σ} {second : τ} (agree : Agree many first second)
    (fewer : few ≤ many) : Agree few first second :=
  fun number before => agree number (by omega)

theorem Agree.split {early late : Nat} {first : σ} {second : τ}
    (agree : Agree (early + late) first second) :
    Agree early first second ∧ Agree late (take early first).2 (take early second).2 := by
  refine ⟨agree.of_le (by omega), ?_⟩
  intro number before
  rw [answer_take, answer_take]
  exact agree _ (by omega)

end DirectionSource

/-- A source that counts its answers. -/
structure Tally (σ : Type) where
  source : σ
  taken : Nat

namespace Tally

variable {σ : Type} [DirectionSource σ]

instance : DirectionSource (Tally σ) where
  next tally :=
    let (heading, source) := DirectionSource.next tally.source
    (heading, ⟨source, tally.taken + 1⟩)

theorem take_eq (count : Nat) (tally : Tally σ) : (DirectionSource.take count tally).2 =
    ⟨(DirectionSource.take count tally.source).2, tally.taken + count⟩ := by
  induction count generalizing tally with
  | zero => rfl
  | succ count ih =>
    refine (ih (DirectionSource.next tally).2).trans ?_
    simp only [DirectionSource.next, DirectionSource.take, Nat.add_assoc, Nat.add_comm 1]

theorem answer_eq (number : Nat) (tally : Tally σ) :
    DirectionSource.answer number tally = DirectionSource.answer number tally.source := by
  induction number generalizing tally with
  | zero => rfl
  | succ number ih => exact ih (DirectionSource.next tally).2

end Tally

theorem Machine.cycle_heading_of_asks {machine : Machine} {limit : Nat}
    (asks : machine.asks limit = true) (answer : Heading) :
    (machine.cycle answer).pointer.heading = answer := by
  simp only [Machine.asks, Bool.and_eq_true, Bool.not_eq_true', beq_iff_eq] at asks
  obtain ⟨⟨plain, symbol⟩, _⟩ := asks
  have dispatched : machine.dispatch answer = machine.turn answer := by
    simp [dispatch, isLiteral, plain, symbol, Instruction.decode, execute]
  rw [cycle, dispatched]
  rfl

namespace Session

variable {σ τ : Type}

def withSource (session : Session σ) (directions : τ) : Session τ := {session with directions}

variable [DirectionSource σ] [DirectionSource τ]

section Cycles

/-- The machine before and after each cycle that at most `count` steps run. A step that finds
a reason to halt runs none. -/
def cyclesFor : Nat → Session σ → List (Machine × Machine)
  | 0, _ => []
  | count + 1, session =>
    if session.machine.halt.isNone && (session.machine.verdict session.config.stepLimit).isNone then
      (session.machine, session.step.machine) :: cyclesFor count session.step
    else cyclesFor count session.step

def cycles : Session σ → List Command → List (Machine × Machine)
  | _, [] => []
  | session, command :: commands =>
    session.cyclesFor (session.quota command) ++ (session.perform command).2.cycles commands

def requestsFor (count : Nat) (session : Session σ) : List (Machine × Machine) :=
  (session.cyclesFor count).filter fun cycle => !cycle.1.stringMode && cycle.1.symbol == '?'

def requests (session : Session σ) (commands : List Command) : List (Machine × Machine) :=
  (session.cycles commands).filter fun cycle => !cycle.1.stringMode && cycle.1.symbol == '?'

def asks (session : Session σ) : Bool :=
  session.machine.halt.isNone && session.machine.asks session.config.stepLimit

/-- The cycle that the next step runs, if it draws a heading. -/
def request (session : Session σ) : List (Machine × Machine) :=
  if session.asks then [(session.machine, session.step.machine)] else []

theorem requestsFor_succ (session : Session σ) (count : Nat) :
    session.requestsFor (count + 1) = session.request ++ session.step.requestsFor count := by
  have asked : session.asks = (session.machine.halt.isNone &&
      (session.machine.verdict session.config.stepLimit).isNone &&
      (!session.machine.stringMode && session.machine.symbol == '?')) := by
    rw [asks, Machine.asks]
    ac_rfl
  rw [request, asked, requestsFor, cyclesFor]
  by_cases runs : (session.machine.halt.isNone &&
      (session.machine.verdict session.config.stepLimit).isNone) = true
  · rw [if_pos runs, runs, Bool.true_and, List.filter_cons]
    split <;> rfl
  · rw [if_neg runs, Bool.eq_false_iff.mpr runs]
    rfl

theorem requests_cons (session : Session σ) (command : Command) (commands : List Command) :
    session.requests (command :: commands) = session.requestsFor (session.quota command) ++
      (session.perform command).2.requests commands :=
  List.filter_append ..

theorem requests_append (session : Session σ) (early late : List Command) :
    session.requests (early ++ late) =
      session.requests early ++ (session.after early).requests late := by
  induction early generalizing session with
  | nil => rfl
  | cons command early ih =>
    rw [List.cons_append, requests_cons, requests_cons, ih, List.append_assoc]
    rfl

end Cycles

section Drawing

/-- From one session to a later one exactly the given requests were answered, in their order. -/
structure Draws (session later : Session σ) (drawn : List (Machine × Machine)) : Prop where
  source : later.directions = (DirectionSource.take drawn.length session.directions).2
  answers : ∀ number cycle, drawn[number]? = some cycle →
    cycle.2 = cycle.1.cycle (DirectionSource.answer number session.directions) ∧
      cycle.2.pointer.heading = DirectionSource.answer number session.directions

variable {session middle later : Session σ}

theorem Draws.none (kept : later.directions = session.directions) : session.Draws later [] :=
  ⟨kept, by simp⟩

theorem Draws.append {early late : List (Machine × Machine)} (begun : session.Draws middle early)
    (continued : middle.Draws later late) : session.Draws later (early ++ late) := by
  refine ⟨?_, ?_⟩
  · rw [List.length_append, DirectionSource.take_add, ← begun.source, continued.source]
  · intro number cycle found
    rw [List.getElem?_append] at found
    split at found
    · exact begun.answers number cycle found
    · rename_i past
      have answered := continued.answers _ cycle found
      rwa [begun.source, DirectionSource.answer_take, Nat.add_sub_of_le (by omega)] at answered

theorem step_of_asks (asks : session.asks = true) :
    session.step.machine = session.machine.cycle (DirectionSource.next session.directions).1 ∧
      session.step.directions = (DirectionSource.next session.directions).2 := by
  simp only [Session.asks, Bool.and_eq_true, Option.isNone_iff_eq_none] at asks
  obtain ⟨running, asks⟩ := asks
  have undecided : session.machine.verdict session.config.stepLimit = Option.none := by
    simp only [Machine.asks, Bool.and_eq_true, Option.isNone_iff_eq_none] at asks
    exact asks.2
  obtain ⟨machine, directions⟩ := step_outside running
  rw [machine, directions]
  simp only [proceed, asks, if_true, Machine.step_of_running undecided, and_self]

theorem step_of_quiet (quiet : session.asks = false) :
    session.step.directions = session.directions := by
  by_cases running : session.machine.halt = Option.none
  · have quiet : session.machine.asks session.config.stepLimit = false := by
      simpa [Session.asks, running] using quiet
    rw [(step_outside running).2]
    simp only [proceed, quiet, Bool.false_eq_true, if_false]
  · rw [step_of_halted running]

theorem step_draws (session : Session σ) : session.Draws session.step session.request := by
  unfold request
  cases asks : session.asks with
  | false => exact .none (step_of_quiet asks)
  | true =>
    obtain ⟨machine, directions⟩ := step_of_asks asks
    refine ⟨directions, ?_⟩
    intro number cycle found
    obtain ⟨rfl, rfl⟩ : number = 0 ∧ (session.machine, session.step.machine) = cycle := by
      simpa [List.getElem?_singleton, eq_comm] using found
    refine ⟨machine, ?_⟩
    simp only [machine]
    simp only [Session.asks, Bool.and_eq_true] at asks
    exact Machine.cycle_heading_of_asks asks.2 _

theorem runFor_step (session : Session σ) (count : Nat) :
    session.runFor (count + 1) = session.step.runFor count := by
  by_cases running : session.machine.halt = Option.none
  · exact runFor_of_running running count
  · rw [step_of_halted running, runFor_of_halted running, runFor_of_halted running]

theorem runFor_draws (session : Session σ) (count : Nat) :
    session.Draws (session.runFor count) (session.requestsFor count) := by
  induction count generalizing session with
  | zero => exact .none rfl
  | succ count ih =>
    rw [runFor_step, requestsFor_succ]
    exact session.step_draws.append (ih session.step)

/-- Navigation takes nothing from the source and gives nothing back to it. -/
theorem perform_keeps_source (session : Session σ) {command : Command}
    (stays : command.advances = false) :
    (session.perform command).2.directions = session.directions := by
  have performed := session.perform_performed command
  generalize session.perform command = outcome at performed
  cases performed with
  | idle advances | advanced advances => cases stays.symm.trans advances
  | restored navigates found =>
    obtain ⟨snapshot, _, rfl⟩ := restore_ok found
    simp only [adopt]
    split <;> rfl
  | failed | turned => rfl

theorem perform_draws (session : Session σ) (command : Command) :
    session.Draws (session.perform command).2 (session.requestsFor (session.quota command)) := by
  cases advances : command.advances with
  | true =>
    rw [session.perform_advancing advances]
    exact session.runFor_draws _
  | false =>
    have nothing : session.quota command = 0 := by
      cases command with
      | step | run => cases advances
      | _ => rfl
    rw [nothing]
    exact .none (session.perform_keeps_source advances)

theorem after_draws (session : Session σ) (commands : List Command) :
    session.Draws (session.after commands) (session.requests commands) := by
  induction commands generalizing session with
  | nil => exact .none rfl
  | cons command commands ih =>
    rw [after_cons, requests_cons]
    exact (session.perform_draws command).append (ih _)

end Drawing

section Comparison

variable (session : Session σ) {other : τ}

omit [DirectionSource σ] [DirectionSource τ] in
theorem capture_withSource (other : τ) :
    (session.withSource other).capture = session.capture.withSource other := by
  have published : (session.withSource other).publish =
      (session.publish.1, session.publish.2.withSource other) := by
    obtain ⟨_, _, _, _, _, _, _, shared, _⟩ := session
    cases shared <;> rfl
  rw [capture, capture, published, apply_ite (fun session : Session σ => session.withSource other)]
  congr 1
  generalize session.publish = published
  obtain ⟨edition, next⟩ := published
  simp only [withSource]
  cases next.timeline.record ⟨{next.machine with field := edition.field}, edition.number⟩ <;> rfl

omit [DirectionSource σ] [DirectionSource τ] in
theorem new_withSource (source : String) (config : Config) (directions : σ) (other : τ) :
    (new source config directions).withSource other = new source config other :=
  (capture_withSource (load source config directions) other).symm

omit [DirectionSource σ] [DirectionSource τ] in
theorem forgetLater_withSource (other : τ) :
    (session.withSource other).forgetLater = session.forgetLater.withSource other := by
  rw [forgetLater, forgetLater, apply_ite (fun session : Session σ => session.withSource other)]
  rfl

omit [DirectionSource σ] [DirectionSource τ] in
theorem restore_withSource (other : τ) (index : Nat) : (session.withSource other).restore index =
    (session.restore index).map (·.withSource other) := by
  simp only [restore, withSource]
  cases session.timeline.snapshots[index]? with
  | none => rfl
  | some snapshot =>
    simp only [adopt, Except.map]
    split <;> rfl

theorem proceed_withSource_of_quiet (quiet : session.machine.asks session.config.stepLimit = false)
    (other : τ) : (session.withSource other).proceed = session.proceed.withSource other := by
  simp only [proceed, withSource, quiet, Bool.false_eq_true, if_false]
  rfl

theorem proceed_withSource_of_asks (asks : session.machine.asks session.config.stepLimit = true)
    (same : (DirectionSource.next other).1 = (DirectionSource.next session.directions).1) :
    (session.withSource other).proceed =
      session.proceed.withSource (DirectionSource.next other).2 := by
  simp only [proceed, withSource, asks, if_true, same]
  rfl

variable {session}

theorem step_withSource
    (agree : DirectionSource.Agree session.request.length session.directions other) :
    (session.withSource other).step =
      session.step.withSource (DirectionSource.take session.request.length other).2 := by
  by_cases running : session.machine.halt = Option.none
  · have also : (session.withSource other).machine.halt = Option.none := running
    have same : session.asks =
        session.forgetLater.machine.asks session.forgetLater.config.stepLimit := by
      simp [asks, running]
    rw [step_of_running also, step_of_running running, forgetLater_withSource]
    unfold request at agree ⊢
    cases asks : session.asks with
    | true =>
      have drawn := agree 0 (by simp [asks])
      rw [proceed_withSource_of_asks _ (same ▸ asks), capture_withSource]
      · rfl
      · rw [forgetLater_directions]
        exact drawn
    | false =>
      rw [proceed_withSource_of_quiet _ (same ▸ asks), capture_withSource]
      rfl
  · have also : (session.withSource other).machine.halt ≠ Option.none := running
    have quiet : session.asks = false := by simp [asks, running]
    rw [step_of_halted running, step_of_halted also, request, quiet]
    rfl

theorem runFor_withSource {count : Nat}
    (agree : DirectionSource.Agree (session.requestsFor count).length session.directions other) :
    (session.withSource other).runFor count = (session.runFor count).withSource
      (DirectionSource.take (session.requestsFor count).length other).2 := by
  induction count generalizing session other with
  | zero => rfl
  | succ count ih =>
    rw [requestsFor_succ, List.length_append] at agree ⊢
    obtain ⟨now, later⟩ := agree.split
    rw [← session.step_draws.source] at later
    rw [runFor_step, runFor_step, step_withSource now, ih later, DirectionSource.take_add]

omit [DirectionSource σ] [DirectionSource τ] in
/-- No move looks at the source. -/
theorem navigation_withSource (session : Session σ) (other : τ) :
    (session.withSource other).stepBackward = session.stepBackward.map (·.withSource other) ∧
    (session.withSource other).stepForward = session.stepForward.map (·.withSource other) ∧
    (session.withSource other).rewind = session.rewind.map (·.withSource other) ∧
    (session.withSource other).jumpToEnd = session.jumpToEnd.map (·.withSource other) := by
  simp only [stepBackward, stepForward, rewind, jumpToEnd, restore_withSource,
    apply_ite (Except.map fun session : Session σ => session.withSource other)]
  exact ⟨rfl, rfl, rfl, rfl⟩

omit [DirectionSource σ] [DirectionSource τ] in
theorem navigated_withSource (other : τ) (result : Except HistoryError (Session σ)) :
    (session.withSource other).navigated (result.map (·.withSource other)) =
      ((session.navigated result).1, (session.navigated result).2.withSource other) := by
  cases result <;> rfl

theorem perform_withSource {command : Command} (agree : DirectionSource.Agree
      (session.requestsFor (session.quota command)).length session.directions other) :
    (session.withSource other).perform command = ((session.perform command).1,
      (session.perform command).2.withSource (DirectionSource.take
        (session.requestsFor (session.quota command)).length other).2) := by
  cases command with
  | step =>
    have stepped := runFor_withSource agree
    rw [quota, runFor_step, runFor_step] at stepped
    simp only [perform, quota]
    rw [show (session.withSource other).step = _ from stepped]
    rfl
  | run =>
    have ran : (session.withSource other).run = session.run.withSource _ := runFor_withSource agree
    simp only [perform, ran]
    rfl
  | stepBackward | stepForward | rewind | jumpToEnd =>
    obtain ⟨backward, forward, rewound, ended⟩ := session.navigation_withSource other
    simp only [perform, backward, forward, rewound, ended, navigated_withSource]
    rfl
  | setHeading heading => rfl

theorem after_withSource {commands : List Command} (agree : DirectionSource.Agree
      (session.requests commands).length session.directions other) :
    (session.withSource other).replies commands = session.replies commands ∧
      (session.withSource other).after commands = (session.after commands).withSource
        (DirectionSource.take (session.requests commands).length other).2 := by
  induction commands generalizing session other with
  | nil => exact ⟨rfl, rfl⟩
  | cons command commands ih =>
    rw [requests_cons, List.length_append] at agree ⊢
    obtain ⟨now, later⟩ := agree.split
    rw [← (session.perform_draws command).source] at later
    obtain ⟨replies, last⟩ := ih later
    rw [after_cons, after_cons, Session.replies, Session.replies, perform_withSource now, replies,
      last, DirectionSource.take_add]
    exact ⟨rfl, rfl⟩

end Comparison

/-- Every answer of a source goes to one request, in their order, and nothing else of the
source matters. -/
theorem draws_taken_in_order (source : String) (config : Config) (directions : σ)
    (commands : List Command) :
    let start := Session.new source config directions
    let last := start.after commands
    let requests := (start.cycles commands).filter fun cycle =>
      !cycle.1.stringMode && cycle.1.symbol == '?'
    ((Session.new source config (Tally.mk directions 0)).after commands).directions =
      ⟨last.directions, requests.length⟩ ∧
    last.directions = (DirectionSource.take requests.length directions).2 ∧
    (∀ command : Command, command.advances = false →
      (last.perform command).2.directions = last.directions) ∧
    (∀ number cycle, requests[number]? = some cycle →
      cycle.2 = cycle.1.cycle (DirectionSource.answer number directions) ∧
      cycle.2.pointer.heading = DirectionSource.answer number directions) ∧
    (∀ other : τ, (∀ number < requests.length,
        DirectionSource.answer number other = DirectionSource.answer number directions) →
      ∀ count,
        (Session.new source config other).replies (commands.take count) =
          start.replies (commands.take count) ∧
        ((Session.new source config other).after (commands.take count)).withSource () =
          (start.after (commands.take count)).withSource ()) ∧
    ∀ (script : List Heading) (number : Nat), script ≠ [] →
      script[number % script.length]? =
        some (DirectionSource.answer number (Script.ofList script)) := by
  intro start last requests
  have begun : start.directions = directions :=
    (load source config directions).capture_outside.2.2
  obtain ⟨drawn, answers⟩ := start.after_draws commands
  rw [begun] at drawn answers
  refine ⟨?_, drawn, fun _ => last.perform_keeps_source, answers, ?_, ?_⟩
  · have agree : DirectionSource.Agree (start.requests commands).length start.directions
        (Tally.mk directions 0) := by
      intro number _
      rw [begun, Tally.answer_eq]
    have tallied := congrArg Session.directions (after_withSource agree).2
    rw [new_withSource] at tallied
    rw [tallied, Tally.take_eq, drawn, Nat.zero_add]
    rfl
  · intro other same count
    have agree : DirectionSource.Agree requests.length start.directions other := by
      rw [begun]
      exact same
    have fewer : (start.requests (commands.take count)).length ≤ requests.length := by
      have all := congrArg List.length
        (start.requests_append (commands.take count) (commands.drop count))
      rw [List.take_append_drop, List.length_append] at all
      exact Nat.le.intro all.symm
    obtain ⟨replies, states⟩ := after_withSource (agree.of_le fewer)
    rw [new_withSource] at replies states
    exact ⟨replies, congrArg (·.withSource ()) states⟩
  · intro script number filled
    have inside := Nat.mod_lt number (List.length_pos_of_ne_nil filled)
    rw [Script.answer_eq]
    simp [Script.ofList, List.getElem?_eq_getElem inside]

end Session

end Befunge
