import Befunge.Machine
import Mathlib.Tactic.Tauto

/-! What one step changes of a machine and what it leaves alone. The heading is
overwritten from outside between steps, so it is told apart which parts of a step
look at it. -/
namespace Befunge

namespace Instruction

theorem decode_eq_put (c : Char) : decode c = .put ↔ c = 'p' := by
  constructor
  · intro decoded
    unfold decode at decoded
    split at decoded <;> cases decoded
    rfl
  · rintro rfl
    rfl

theorem decode_eq_random (c : Char) : decode c = .random ↔ c = '?' := by
  constructor
  · intro decoded
    unfold decode at decoded
    split at decoded <;> cases decoded
    rfl
  · rintro rfl
    rfl

end Instruction

namespace Machine

section Turning

variable (machine : Machine) (heading : Heading)

@[simp]
theorem turn_turn (first : Heading) : (machine.turn first).turn heading = machine.turn heading := rfl

@[simp]
theorem turn_field : (machine.turn heading).field = machine.field := rfl

@[simp]
theorem turn_halt : (machine.turn heading).halt = machine.halt := rfl

@[simp]
theorem turn_heading : (machine.turn heading).pointer.heading = heading := rfl

@[simp]
theorem verdict_turn (limit : Nat) : (machine.turn heading).verdict limit = machine.verdict limit := rfl

@[simp]
theorem lands_turn (limit : Nat) : (machine.turn heading).lands limit = machine.lands limit := rfl

end Turning

variable {machine : Machine} {limit : Nat}

theorem put_eq (machine : Machine) : machine.put =
    {machine with
      field := machine.written?.getD machine.field
      stack := machine.stack.drop.drop.drop} := by
  unfold put
  cases machine.written? <;> rfl

theorem lands_iff : machine.lands limit = true ↔
    machine.verdict limit = none ∧ machine.stringMode = false ∧ machine.symbol = 'p' ∧
      (Text.ofCode? machine.stack.drop.drop.peek).isSome ∧
      machine.field.contains machine.stack.drop.peek machine.stack.peek := by
  have written : machine.written?.isSome ↔ (Text.ofCode? machine.stack.drop.drop.peek).isSome ∧
      machine.field.contains machine.stack.drop.peek machine.stack.peek := by
    simp only [written?, Stack.pop]
    cases Text.ofCode? machine.stack.drop.drop.peek <;> simp [Playfield.isSome_write?]
  simp only [lands, Bool.and_eq_true, Bool.not_eq_true', beq_iff_eq, Option.isNone_iff_eq_none, written]
  tauto

theorem execute_steps (answer : Heading) (machine : Machine) (instruction : Instruction) :
    (machine.execute answer instruction).steps = machine.steps := by
  cases instruction with
  | put => simp only [execute, put_eq]
  | _ => rfl

theorem execute_halt (answer : Heading) (machine : Machine) (instruction : Instruction) :
    (machine.execute answer instruction).halt = machine.halt := by
  cases instruction with
  | put => simp only [execute, put_eq]
  | _ => rfl

theorem execute_field (answer : Heading) (machine : Machine) {instruction : Instruction}
    (other : instruction ≠ .put) : (machine.execute answer instruction).field = machine.field := by
  cases instruction with
  | put => contradiction
  | _ => rfl

theorem execute_answer (first second : Heading) (machine : Machine) {instruction : Instruction}
    (other : instruction ≠ .random) :
    machine.execute first instruction = machine.execute second instruction := by
  cases instruction with
  | random => contradiction
  | _ => rfl

@[simp]
theorem cycle_steps (answer : Heading) (machine : Machine) :
    (machine.cycle answer).steps = machine.steps + 1 := by
  simp only [cycle, dispatch, advance, push]
  split
  · rfl
  · rw [execute_steps]

@[simp]
theorem cycle_halt (answer : Heading) (machine : Machine) :
    (machine.cycle answer).halt = machine.halt := by
  simp only [cycle, dispatch, advance, push]
  split
  · rfl
  · rw [execute_halt]

theorem step_of_verdict {halt : Halt} (decided : machine.verdict limit = some halt)
    (answer : Heading) : machine.step limit answer = {machine with halt := some halt} := by
  rw [step, decided]

theorem step_of_running (undecided : machine.verdict limit = none) (answer : Heading) :
    machine.step limit answer = machine.cycle answer := by
  rw [step, undecided]

theorem steps_lt_of_running (undecided : machine.verdict limit = none) : machine.steps < limit := by
  unfold verdict at undecided
  split at undecided
  · cases undecided
  · split at undecided
    · cases undecided
    · split at undecided
      · cases undecided
      · omega

/-- Only a put that lands changes the playfield. -/
theorem step_field (afar : machine.lands limit = false) (answer : Heading) :
    (machine.step limit answer).field = machine.field := by
  cases decided : machine.verdict limit with
  | some halt => rw [step_of_verdict decided]
  | none =>
    rw [step_of_running decided]
    simp only [cycle, dispatch, advance, push]
    split
    · rfl
    · rename_i instruction
      by_cases isPut : Instruction.decode machine.symbol = .put
      · have symbol := (Instruction.decode_eq_put _).mp isPut
        have plain : machine.stringMode = false := by
          simpa [isLiteral, symbol] using instruction
        have missed : machine.written? = none := by
          simpa [lands, plain, symbol, decided] using afar
        simp only [isPut, execute, put_eq, missed, Option.getD_none]
      · exact execute_field answer machine isPut

/-- A step that does not ask for a heading does not depend on the answer. -/
theorem step_answer (quiet : machine.asks limit = false) (first second : Heading) :
    machine.step limit first = machine.step limit second := by
  cases decided : machine.verdict limit with
  | some halt => rw [step_of_verdict decided, step_of_verdict decided]
  | none =>
    rw [step_of_running decided, step_of_running decided]
    have same : machine.dispatch first = machine.dispatch second := by
      unfold dispatch
      split
      · rfl
      · rename_i instruction
        apply execute_answer
        intro isRandom
        have symbol := (Instruction.decode_eq_random _).mp isRandom
        have plain : machine.stringMode = false := by
          simpa [isLiteral, symbol] using instruction
        simp [asks, plain, symbol, decided] at quiet
    simp only [cycle, same]

end Machine

end Befunge
