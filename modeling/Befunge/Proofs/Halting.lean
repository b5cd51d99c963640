import Befunge.Proofs.Confinement
import Mathlib.Data.ENat.Lattice

/-! When a run stops. Up to then its steps are bare cycles, which know of no limit. The
run goes on until a cycle ends on a terminator outside string mode or the limit is
used up, whichever is first, and on a tie the terminator counts. -/
namespace Befunge

theorem Transcript.text_print (transcript : Transcript) (text : String) :
    transcript.text.toList <+: (transcript.print text).text.toList := by
  simp [print]

theorem Transcript.text_printCharacter (transcript : Transcript) (symbol : Char) :
    transcript.text.toList <+: (transcript.printCharacter symbol).text.toList := by
  simp [printCharacter]

namespace Machine

def atTerminator (machine : Machine) : Bool := !machine.stringMode && machine.symbol == '@'

theorem verdict_eq_none_iff {machine : Machine} {limit : Nat} : machine.verdict limit = none ↔
    machine.field.isEmpty = false ∧ machine.atTerminator = false ∧ machine.steps < limit := by
  have terminator : (!machine.stringMode && machine.symbol == '@') = machine.atTerminator := rfl
  simp only [verdict, terminator]
  split_ifs <;> simp_all

theorem verdict_of_terminator {machine : Machine} (limit : Nat)
    (filled : machine.field.isEmpty = false) (ends : machine.atTerminator = true) :
    machine.verdict limit = some .terminated := by
  rw [atTerminator] at ends
  simp only [verdict, filled, ends, Bool.false_eq_true, if_false, if_true]

theorem verdict_of_limit {machine : Machine} {limit : Nat} (filled : machine.field.isEmpty = false)
    (onward : machine.atTerminator = false) (used : limit ≤ machine.steps) :
    machine.verdict limit = some .stepLimit := by
  rw [atTerminator] at onward
  simp only [verdict, filled, onward, used, Bool.false_eq_true, if_false, if_true]

theorem step_steps_le {machine : Machine} {limit : Nat} (answer : Heading)
    (within : machine.steps ≤ limit) : (machine.step limit answer).steps ≤ limit := by
  cases decided : machine.verdict limit with
  | some halt =>
    rw [step_of_verdict decided]
    exact within
  | none =>
    rw [step_of_running decided, cycle_steps]
    exact steps_lt_of_running decided

theorem execute_output (answer : Heading) (machine : Machine) (instruction : Instruction) :
    machine.output.text.toList <+:
      (machine.execute answer instruction).output.text.toList := by
  cases instruction with
  | outputInteger => exact Transcript.text_print ..
  | outputCharacter => exact Transcript.text_printCharacter ..
  | put => simp only [execute, put_eq, List.prefix_refl]
  | _ => exact List.prefix_refl _

theorem cycle_output (answer : Heading) (machine : Machine) :
    machine.output.text.toList <+: (machine.cycle answer).output.text.toList := by
  simp only [cycle, dispatch, advance, push]
  split
  · exact List.prefix_refl _
  · exact execute_output ..

variable {σ : Type} [DirectionSource σ]

/-- A cycle that draws its heading from a source if it needs one. -/
def drawCycle (state : Machine × σ) : Machine × σ :=
  if !state.1.stringMode && state.1.symbol == '?' then
    (state.1.cycle (DirectionSource.next state.2).1, (DirectionSource.next state.2).2)
  else (state.1.cycle state.1.pointer.heading, state.2)

/-- The least number of cycles that lead to a terminator, infinite if none does. -/
noncomputable def lifetime (state : Machine × σ) : ℕ∞ :=
  ⨅ (count : ℕ) (_ : (drawCycle^[count] state).1.atTerminator = true), (count : ℕ∞)

theorem drawCycle_machine (state : Machine × σ) :
    ∃ answer, (drawCycle state).1 = state.1.cycle answer := by
  unfold drawCycle
  split <;> exact ⟨_, rfl⟩

theorem iterate_drawCycle_steps (state : Machine × σ) (count : ℕ) :
    (drawCycle^[count] state).1.steps = state.1.steps + count := by
  induction count with
  | zero => rfl
  | succ count ih =>
    obtain ⟨answer, cycled⟩ := drawCycle_machine (drawCycle^[count] state)
    rw [Function.iterate_succ_apply', cycled, cycle_steps, ih, Nat.add_assoc]

theorem iterate_drawCycle_isEmpty (state : Machine × σ) (count : ℕ) :
    (drawCycle^[count] state).1.field.isEmpty = state.1.field.isEmpty := by
  induction count with
  | zero => rfl
  | succ count ih =>
    obtain ⟨answer, cycled⟩ := drawCycle_machine (drawCycle^[count] state)
    rw [Function.iterate_succ_apply', cycled, (cycle_overlays ..).isEmpty, ih]

theorem iterate_drawCycle_output (state : Machine × σ) {low high : ℕ} (order : low ≤ high) :
    (drawCycle^[low] state).1.output.text.toList <+:
      (drawCycle^[high] state).1.output.text.toList := by
  induction high, order using Nat.le_induction with
  | base => exact List.prefix_refl _
  | succ high order ih =>
    obtain ⟨answer, cycled⟩ := drawCycle_machine (drawCycle^[high] state)
    rw [Function.iterate_succ_apply', cycled]
    exact ih.trans (cycle_output ..)

theorem lifetime_le_iff {state : Machine × σ} {count : ℕ} : lifetime state ≤ count ↔
    ∃ earlier ≤ count, (drawCycle^[earlier] state).1.atTerminator = true := by
  constructor
  · intro short
    by_contra! later
    have long : ((count + 1 : ℕ) : ℕ∞) ≤ lifetime state := by
      refine le_iInf₂ fun reached ends => Nat.cast_le.mpr ?_
      by_contra early
      exact later reached (by omega) ends
    have absurdity := Nat.cast_le.mp (long.trans short)
    omega
  · rintro ⟨earlier, within, ends⟩
    exact iInf₂_le_of_le earlier ends (Nat.cast_le.mpr within)

theorem lifetime_eq {state : Machine × σ} {count : ℕ}
    (ends : (drawCycle^[count] state).1.atTerminator = true)
    (onward : ∀ earlier < count, (drawCycle^[earlier] state).1.atTerminator = false) :
    lifetime state = count := by
  apply le_antisymm
  · exact lifetime_le_iff.mpr ⟨count, le_rfl, ends⟩
  · refine le_iInf₂ fun reached also => Nat.cast_le.mpr ?_
    by_contra early
    simp [onward reached (by omega)] at also

end Machine

namespace Session

variable {σ : Type} [DirectionSource σ] {session : Session σ}

def live (session : Session σ) : Machine × σ := (session.machine, session.directions)

theorem runFor_eq_iterate (session : Session σ) (count : ℕ) :
    session.runFor count = step^[count] session := by
  induction count with
  | zero => rfl
  | succ count ih => rw [runFor_succ, Function.iterate_succ_apply', ih]

theorem iterate_step_config (session : Session σ) (count : ℕ) :
    (step^[count] session).config = session.config := by
  rw [← runFor_eq_iterate, runFor_config]

theorem step_live (running : session.machine.halt = none)
    (undecided : session.machine.verdict session.config.stepLimit = none) :
    session.step.live = Machine.drawCycle session.live := by
  obtain ⟨machine, directions⟩ := step_outside running
  rw [live, machine, directions]
  cases request : !session.machine.stringMode && session.machine.symbol == '?' <;>
    simp [proceed, Machine.asks, undecided, Machine.step_of_running undecided,
      Machine.drawCycle, live, request]

theorem step_live_of_verdict {halt : Halt} (running : session.machine.halt = none)
    (decided : session.machine.verdict session.config.stepLimit = some halt) :
    session.step.live = ({session.machine with halt := some halt}, session.directions) := by
  obtain ⟨machine, directions⟩ := step_outside running
  rw [live, machine, directions]
  simp [proceed, Machine.asks, decided, Machine.step_of_verdict decided]

/-- As long as no terminator is met and the limit is not used up, steps are cycles. -/
theorem iterate_step_live (running : session.machine.halt = none)
    (filled : session.machine.field.isEmpty = false) {count : ℕ}
    (within : session.machine.steps + count ≤ session.config.stepLimit)
    (onward : ∀ earlier < count,
      (Machine.drawCycle^[earlier] session.live).1.atTerminator = false) :
    (step^[count] session).live = Machine.drawCycle^[count] session.live ∧
      (step^[count] session).machine.halt = none := by
  induction count with
  | zero => exact ⟨rfl, running⟩
  | succ count ih =>
    obtain ⟨reached, going⟩ := ih (by omega) fun earlier before => onward earlier (by omega)
    have machine : (step^[count] session).machine =
        (Machine.drawCycle^[count] session.live).1 := congrArg Prod.fst reached
    have undecided : (step^[count] session).machine.verdict
        (step^[count] session).config.stepLimit = none := by
      rw [iterate_step_config, machine, Machine.verdict_eq_none_iff,
        Machine.iterate_drawCycle_isEmpty, Machine.iterate_drawCycle_steps]
      exact ⟨filled, onward count (by omega), by simp only [live]; omega⟩
    have stepped := step_live going undecided
    obtain ⟨answer, cycled⟩ := Machine.drawCycle_machine (step^[count] session).live
    rw [Function.iterate_succ_apply', Function.iterate_succ_apply', ← reached, stepped]
    refine ⟨rfl, ?_⟩
    have machine : (step^[count] session).step.machine =
        (step^[count] session).machine.cycle answer := (congrArg Prod.fst stepped).trans cycled
    rw [machine, Machine.cycle_halt, going]

/-- The run has stopped after a number of cycles and one more step, which has found the
reason. -/
structure Stopped (session : Session σ) (count : ℕ) (halt : Halt) : Prop where
  calls : session.run = step^[count + 1] session
  running : ∀ earlier ≤ count, (step^[earlier] session).machine.halt = none
  live : session.run.live =
    ({(Machine.drawCycle^[count] session.live).1 with halt := some halt},
      (Machine.drawCycle^[count] session.live).2)

theorem Stopped.machine {count : ℕ} {halt : Halt} (stopped : session.Stopped count halt) :
    session.run.machine = {(Machine.drawCycle^[count] session.live).1 with halt := some halt} :=
  congrArg Prod.fst stopped.live

theorem Stopped.directions {count : ℕ} {halt : Halt} (stopped : session.Stopped count halt) :
    session.run.directions = (Machine.drawCycle^[count] session.live).2 :=
  congrArg Prod.snd stopped.live

theorem stopped_of_verdict {count : ℕ} {halt : Halt}
    (within : session.machine.steps + count ≤ session.config.stepLimit)
    (reached : ∀ earlier ≤ count,
      (step^[earlier] session).live = Machine.drawCycle^[earlier] session.live ∧
        (step^[earlier] session).machine.halt = none)
    (decided : (Machine.drawCycle^[count] session.live).1.verdict session.config.stepLimit =
      some halt) :
    session.Stopped count halt := by
  obtain ⟨here, running⟩ := reached count le_rfl
  have last : (step^[count + 1] session).live =
      ({(Machine.drawCycle^[count] session.live).1 with halt := some halt},
        (Machine.drawCycle^[count] session.live).2) := by
    rw [← here] at decided ⊢
    rw [← session.iterate_step_config count] at decided
    rw [Function.iterate_succ_apply', step_live_of_verdict running decided]
    rfl
  have halted : (step^[count + 1] session).machine.halt ≠ none := by
    rw [show (step^[count + 1] session).machine = _ from congrArg Prod.fst last]
    exact Option.some_ne_none halt
  -- The steps that the loop has left over find the machine halted.
  have calls : session.run = step^[count + 1] session := by
    have enough : session.config.stepLimit - session.machine.steps + 1 =
        count + 1 + (session.config.stepLimit - session.machine.steps - count) := by omega
    rw [run, enough, runFor_add, runFor_eq_iterate session (count + 1), runFor_of_halted halted]
  exact ⟨calls, fun earlier before => (reached earlier before).2, calls ▸ last⟩

theorem stopped_of_empty (running : session.machine.halt = none)
    (within : session.machine.steps ≤ session.config.stepLimit)
    (empty : session.machine.field.isEmpty = true) : session.Stopped 0 .emptyProgram := by
  apply stopped_of_verdict within
  · intro earlier before
    rw [Nat.le_zero.mp before]
    exact ⟨rfl, running⟩
  · simp [live, Machine.verdict, empty]

theorem stopped_of_onward (running : session.machine.halt = none)
    (filled : session.machine.field.isEmpty = false) {count : ℕ} {halt : Halt}
    (within : session.machine.steps + count ≤ session.config.stepLimit)
    (onward : ∀ earlier < count,
      (Machine.drawCycle^[earlier] session.live).1.atTerminator = false)
    (decided : (Machine.drawCycle^[count] session.live).1.verdict session.config.stepLimit =
      some halt) :
    session.Stopped count halt := by
  apply stopped_of_verdict within _ decided
  intro earlier before
  apply iterate_step_live running filled (by omega)
  intro other early
  exact onward other (by omega)

/-- Cycles that the step limit still allows. -/
def allowance (session : Session σ) : ℕ := session.config.stepLimit - session.machine.steps

theorem stopped_of_terminator (running : session.machine.halt = none)
    (within : session.machine.steps ≤ session.config.stepLimit)
    (filled : session.machine.field.isEmpty = false)
    (short : Machine.lifetime session.live ≤ session.allowance) :
    ∃ count : ℕ, session.Stopped count .terminated ∧ Machine.lifetime session.live = count := by
  have ended : ∃ count, (Machine.drawCycle^[count] session.live).1.atTerminator = true := by
    obtain ⟨count, _, ends⟩ := Machine.lifetime_le_iff.mp short
    exact ⟨count, ends⟩
  have onward (earlier : ℕ) (before : earlier < Nat.find ended) :
      (Machine.drawCycle^[earlier] session.live).1.atTerminator = false := by
    simpa using Nat.find_min ended before
  have lifetime := Machine.lifetime_eq (Nat.find_spec ended) onward
  have allowed : Nat.find ended ≤ session.config.stepLimit - session.machine.steps :=
    Nat.cast_le.mp (lifetime ▸ short)
  refine ⟨Nat.find ended, stopped_of_onward running filled (by omega) onward ?_, lifetime⟩
  apply Machine.verdict_of_terminator
  · rw [Machine.iterate_drawCycle_isEmpty]
    exact filled
  · exact Nat.find_spec ended

theorem stopped_of_limit (running : session.machine.halt = none)
    (within : session.machine.steps ≤ session.config.stepLimit)
    (filled : session.machine.field.isEmpty = false)
    (long : ¬ Machine.lifetime session.live ≤ session.allowance) :
    session.Stopped session.allowance .stepLimit := by
  have onward (earlier : ℕ) (before : earlier ≤ session.allowance) :
      (Machine.drawCycle^[earlier] session.live).1.atTerminator = false := by
    by_contra ends
    exact long (Machine.lifetime_le_iff.mpr ⟨earlier, before, by simpa using ends⟩)
  have used : session.machine.steps + session.allowance = session.config.stepLimit :=
    Nat.add_sub_of_le within
  apply stopped_of_onward running filled used.le fun earlier before => onward earlier before.le
  apply Machine.verdict_of_limit
  · rw [Machine.iterate_drawCycle_isEmpty]
    exact filled
  · exact onward _ le_rfl
  · rw [Machine.iterate_drawCycle_steps]
    exact used.ge

/-- On a playfield with cells a run stops after as many cycles as the limit allows, or at
the first terminator before. -/
theorem stopped_of_filled (running : session.machine.halt = none)
    (within : session.machine.steps ≤ session.config.stepLimit)
    (filled : session.machine.field.isEmpty = false) : ∃ (count : ℕ) (halt : Halt),
    session.Stopped count halt ∧
      (count : ℕ∞) = min (session.allowance : ℕ∞) (Machine.lifetime session.live) ∧
      (halt = .terminated ↔ Machine.lifetime session.live ≤ session.allowance) ∧
      (halt = .stepLimit ↔ session.allowance < Machine.lifetime session.live) := by
  by_cases short : Machine.lifetime session.live ≤ session.allowance
  · obtain ⟨count, stopped, lifetime⟩ := stopped_of_terminator running within filled short
    refine ⟨count, .terminated, stopped, ?_, ?_, ?_⟩
    · rw [min_eq_right short, lifetime]
    · simp [short]
    · simp [short]
  · refine ⟨session.allowance, .stepLimit, stopped_of_limit running within filled short, ?_, ?_, ?_⟩
    · rw [min_eq_left (le_of_not_ge short)]
    · simp [short]
    · simp [lt_of_not_ge short]

example : (Session.new "1@" ⟨1, false, 0⟩ (Script.ofList [])).run.machine.halt = some .terminated := by
  decide +kernel

theorem stopped_of_running (running : session.machine.halt = none)
    (within : session.machine.steps ≤ session.config.stepLimit) : ∃ (count : ℕ) (halt : Halt),
    session.Stopped count halt ∧ count ≤ session.allowance := by
  cases cells : session.machine.field.isEmpty with
  | true => exact ⟨0, .emptyProgram, stopped_of_empty running within cells, Nat.zero_le _⟩
  | false =>
    obtain ⟨count, halt, stopped, least, _⟩ := stopped_of_filled running within cells
    refine ⟨count, halt, stopped, ?_⟩
    have allowed : (count : ℕ∞) ≤ session.allowance := least ▸ min_le_left ..
    exact Nat.cast_le.mp allowed

section Comparison

variable (source : String) (config : Config) (directions : σ)

omit [DirectionSource σ] in
theorem new_live : (new source config directions).live = (.load source, directions) := by
  obtain ⟨_, machine, drawn⟩ := (load source config directions).capture_outside
  exact Prod.ext machine drawn

omit [DirectionSource σ] in
theorem new_allowance : (new source config directions).allowance = config.stepLimit := by
  obtain ⟨limited, machine, _⟩ := (load source config directions).capture_outside
  rw [allowance, new, limited, machine]
  rfl

omit [DirectionSource σ] in
theorem new_machine : (new source config directions).machine = .load source :=
  congrArg Prod.fst (new_live source config directions)

omit [DirectionSource σ] in
theorem new_running : (new source config directions).machine.halt = none := by
  rw [new_machine]
  rfl

omit [DirectionSource σ] in
theorem new_steps_le : (new source config directions).machine.steps ≤
    (new source config directions).config.stepLimit := by
  rw [new_machine]
  exact Nat.zero_le _

theorem new_run_of_empty (empty : (Playfield.build source).isEmpty = true) :
    (new source config directions).run.machine.output = .empty := by
  have stopped := stopped_of_empty (new_running source config directions)
    (new_steps_le source config directions) (by rw [new_machine]; exact empty)
  rw [stopped.machine, new_live]
  rfl

theorem new_run_of_filled (filled : (Playfield.build source).isEmpty = false) : ∃ count : ℕ,
    (count : ℕ∞) = min (config.stepLimit : ℕ∞) (Machine.lifetime (.load source, directions)) ∧
      (new source config directions).run.machine.output =
        (Machine.drawCycle^[count] (.load source, directions)).1.output := by
  obtain ⟨count, halt, stopped, least, _⟩ := stopped_of_filled (new_running source config directions)
    (new_steps_le source config directions) (by rw [new_machine]; exact filled)
  rw [new_allowance, new_live] at least
  refine ⟨count, least, ?_⟩
  rw [stopped.machine, new_live]

end Comparison

/-- What a run prints under one limit it prints first under any greater one, and all of it
if it comes to a terminator. -/
theorem run_output_mono (source : String) (directions : σ) {first second : Config}
    (order : first.stepLimit ≤ second.stepLimit) :
    (new source first directions).run.machine.output.text.toList <+:
        (new source second directions).run.machine.output.text.toList ∧
      (Machine.lifetime (.load source, directions) ≤ (first.stepLimit : ℕ∞) →
        (new source first directions).run.machine.output =
          (new source second directions).run.machine.output) := by
  cases cells : (Playfield.build source).isEmpty with
  | true =>
    rw [new_run_of_empty source first directions cells, new_run_of_empty source second directions cells]
    exact ⟨List.prefix_refl _, fun _ => rfl⟩
  | false =>
    obtain ⟨few, fewer, output⟩ := new_run_of_filled source first directions cells
    obtain ⟨many, more, longer⟩ := new_run_of_filled source second directions cells
    have limits : (first.stepLimit : ℕ∞) ≤ second.stepLimit := Nat.cast_le.mpr order
    rw [output, longer]
    refine ⟨?_, ?_⟩
    · have fewest : (few : ℕ∞) ≤ many := by
        rw [fewer, more]
        exact min_le_min_right _ limits
      exact Machine.iterate_drawCycle_output _ (Nat.cast_le.mp fewest)
    · intro short
      have same : few = many := by
        apply Nat.cast_injective (R := ℕ∞)
        rw [fewer, more, min_eq_right short, min_eq_right (short.trans limits)]
      rw [same]

/-- A run stops at the first reason to do so, after the cycles that lead there and one
more step. -/
theorem run_stops_at_first_reason (source : String) (config : Config) (directions : σ)
    (commands : List Command) :
    let session := (Session.new source config directions).after commands
    let machine := session.machine
    let left := config.stepLimit - machine.steps
    let lifetime := Machine.lifetime (machine, session.directions)
    (machine.steps ≤ config.stepLimit ∧
      (config.stepLimit < 2 ^ 64 → machine.steps < 2 ^ 64)) ∧
    (machine.halt = none →
      (∃ calls ≤ left + 1, session.run = Session.step^[calls] session ∧
        session.run.machine.halt ≠ none ∧
        ∀ earlier < calls, (Session.step^[earlier] session).machine.halt = none) ∧
      (machine.field.isEmpty = true →
        session.run.machine = {machine with halt := some .emptyProgram} ∧
        session.run.directions = session.directions) ∧
      (machine.field.isEmpty = false → ∃ count : ℕ, (count : ℕ∞) = min (left : ℕ∞) lifetime ∧
        session.run.machine =
          {(Machine.drawCycle^[count] (machine, session.directions)).1 with
            halt := session.run.machine.halt} ∧
        session.run.directions = (Machine.drawCycle^[count] (machine, session.directions)).2 ∧
        session.run.machine.steps = machine.steps + count ∧
        (session.run.machine.halt = some .terminated ↔ lifetime ≤ left) ∧
        (session.run.machine.halt = some .stepLimit ↔ left < lifetime))) ∧
    ∀ first second : Config, first.stepLimit ≤ second.stepLimit →
      let brief := (Session.new source first directions).run.machine.output
      let long := (Session.new source second directions).run.machine.output
      brief.text.toList <+: long.text.toList ∧
        (Machine.lifetime (.load source, directions) ≤ (first.stepLimit : ℕ∞) → brief = long) := by
  intro session machine left lifetime
  have within : machine.steps ≤ config.stepLimit :=
    (new_after_upholds source config directions commands
      (P := fun machine => machine.steps ≤ config.stepLimit) (Nat.zero_le _)
      (fun _ _ within => within) (fun _ answer within => Machine.step_steps_le answer within)).1
  have limited : session.config = config :=
    (new_after_coherent source config directions commands).config
  have allowed : session.allowance = left := by rw [allowance, limited]
  have upTo : session.machine.steps ≤ session.config.stepLimit := by rwa [limited]
  refine ⟨⟨within, within.trans_lt⟩, ?_, fun _ _ order => run_output_mono source directions order⟩
  intro running
  refine ⟨?_, ?_, ?_⟩
  · obtain ⟨count, halt, stopped, few⟩ := stopped_of_running running upTo
    refine ⟨count + 1, by omega, stopped.calls, ?_, ?_⟩
    · rw [stopped.machine]
      exact Option.some_ne_none halt
    · intro earlier before
      exact stopped.running earlier (Nat.le_of_lt_succ before)
  · intro empty
    have stopped := stopped_of_empty running upTo empty
    exact ⟨stopped.machine, stopped.directions⟩
  · intro filled
    obtain ⟨count, halt, stopped, least, ended, cut⟩ := stopped_of_filled running upTo filled
    rw [allowed] at least ended cut
    have halted : session.run.machine.halt = some halt := by rw [stopped.machine]
    refine ⟨count, least, ?_, stopped.directions, ?_, ?_, ?_⟩
    · rw [halted]
      exact stopped.machine
    · rw [stopped.machine]
      exact Machine.iterate_drawCycle_steps session.live count
    · rw [halted, Option.some_inj]
      exact ended
    · rw [halted, Option.some_inj]
      exact cut

end Session

end Befunge
