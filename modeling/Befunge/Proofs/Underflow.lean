import Befunge.Proofs.Recording
import Mathlib.Data.List.GetD

/-! A stack goes on below its bottom with zeros. Only the values at each depth matter to a
program, so zeros that lie at the bottom are never noticed. -/
namespace Befunge

namespace Stack

def value (stack : Stack) (depth : Nat) : Int64 := stack.topFirst.getD depth 0

def SameValues (first second : Stack) : Prop := ∀ depth, first.value depth = second.value depth

/-- Both stacks hold the same, apart from zeros at the bottom of the deeper one. -/
def Pads (deeper stack : Stack) : Prop :=
  ∃ count, deeper.toList = List.replicate count 0 ++ stack.toList

theorem pads_iff_topFirst {deeper stack : Stack} : deeper.Pads stack ↔
    ∃ count, deeper.topFirst = stack.topFirst ++ List.replicate count 0 := by
  simp [Pads, toList, List.reverse_eq_iff]

variable {first second : Stack}

theorem SameValues.symm (same : first.SameValues second) : second.SameValues first :=
  fun depth => (same depth).symm

theorem SameValues.peek (same : first.SameValues second) : first.peek = second.peek := by
  simpa [value, Stack.peek, List.head?_eq_getElem?] using same 0

theorem SameValues.drop (same : first.SameValues second) : first.drop.SameValues second.drop := by
  intro depth
  simpa [value, Stack.drop] using same (depth + 1)

theorem SameValues.push (same : first.SameValues second) (value : Int64) :
    (first.push value).SameValues (second.push value) := by
  intro depth
  cases depth with
  | zero => rfl
  | succ depth => simpa [Stack.value, Stack.push] using same depth

theorem Pads.sameValues (pads : first.Pads second) : first.SameValues second := by
  obtain ⟨count, zeros⟩ := pads_iff_topFirst.mp pads
  intro depth
  rw [value, value, zeros]
  by_cases inside : depth < second.topFirst.length
  · rw [List.getD_append _ _ _ _ inside]
  · rw [List.getD_append_right _ _ _ _ (by omega),
      List.getD_eq_default second.topFirst _ (by omega)]
    simp

theorem SameValues.pads (same : first.SameValues second) (deeper : second.depth ≤ first.depth) :
    first.Pads second := by
  refine pads_iff_topFirst.mpr ⟨first.depth - second.depth, ?_⟩
  apply List.ext_getElem
  · simp only [List.length_append, List.length_replicate, depth] at deeper ⊢
    omega
  · intro index inside extended
    have equal := same index
    rw [value, value, List.getD_eq_getElem _ _ inside] at equal
    rw [equal, List.getElem_append]
    split
    · rename_i shallow
      exact List.getD_eq_getElem _ _ shallow
    · rename_i below
      rw [List.getElem_replicate, List.getD_eq_default _ _ (by omega)]

theorem sameValues_iff_pads : first.SameValues second ↔ first.Pads second ∨ second.Pads first := by
  constructor
  · intro same
    rcases Nat.le_total second.depth first.depth with deeper | deeper
    · exact .inl (same.pads deeper)
    · exact .inr (same.symm.pads deeper)
  · rintro (pads | pads)
    · exact pads.sameValues
    · exact pads.sameValues.symm

end Stack

namespace Machine

/-- The machines agree, the stacks as far as their values go. -/
def Resembles (first second : Machine) : Prop :=
  ∃ stack, stack.SameValues second.stack ∧ first = {second with stack}

variable {first second : Machine}

theorem Resembles.execute (resembles : first.Resembles second) (answer : Heading)
    (instruction : Instruction) :
    (first.execute answer instruction).Resembles (second.execute answer instruction) := by
  obtain ⟨stack, same, rfl⟩ := resembles
  cases instruction with
  | digit value => exact ⟨_, same.push _, rfl⟩
  | compute operator =>
    simp only [Machine.execute, Stack.popPair, same.peek, same.drop.peek]
    exact ⟨_, same.drop.drop.push _, rfl⟩
  | negate =>
    simp only [Machine.execute, Stack.pop, same.peek]
    exact ⟨_, same.drop.push _, rfl⟩
  | greater =>
    simp only [Machine.execute, Stack.popPair, same.peek, same.drop.peek]
    exact ⟨_, same.drop.drop.push _, rfl⟩
  | duplicate =>
    simp only [Machine.execute, Stack.duplicate, same.peek]
    exact ⟨_, same.push _, rfl⟩
  | swap =>
    simp only [Machine.execute, Stack.swap, Stack.popPair, same.peek, same.drop.peek]
    exact ⟨_, (same.drop.drop.push _).push _, rfl⟩
  | discard => exact ⟨_, same.drop, rfl⟩
  | horizontalIf | verticalIf | outputInteger | outputCharacter =>
    simp only [Machine.execute, Stack.pop, same.peek]
    exact ⟨_, same.drop, rfl⟩
  | put =>
    -- Three operands are taken, however few there are.
    simp only [Machine.execute, put_eq, written?, Stack.pop, same.peek, same.drop.peek,
      same.drop.drop.peek]
    exact ⟨_, same.drop.drop.drop, rfl⟩
  | get =>
    simp only [Machine.execute, Machine.get, Stack.pop, same.peek, same.drop.peek]
    exact ⟨_, same.drop.drop.push _, rfl⟩
  | go | random | stringMode | trampoline | halt | blank => exact ⟨_, same, rfl⟩

theorem Resembles.dispatch (resembles : first.Resembles second) (answer : Heading) :
    (first.dispatch answer).Resembles (second.dispatch answer) := by
  obtain ⟨stack, same, rfl⟩ := resembles
  by_cases literal : second.isLiteral = true
  · have also : {second with stack}.isLiteral = true := literal
    simp only [Machine.dispatch, literal, also, if_true]
    exact ⟨_, same.push _, rfl⟩
  · have neither : ¬ {second with stack}.isLiteral = true := literal
    simp only [Machine.dispatch, literal, neither]
    exact Resembles.execute ⟨stack, same, rfl⟩ answer _

theorem Resembles.cycle (resembles : first.Resembles second) (answer : Heading) :
    (first.cycle answer).Resembles (second.cycle answer) := by
  obtain ⟨stack, same, dispatched⟩ := resembles.dispatch answer
  simp only [Machine.cycle, dispatched]
  exact ⟨stack, same, rfl⟩

theorem Resembles.verdict (resembles : first.Resembles second) (limit : Nat) :
    first.verdict limit = second.verdict limit := by
  obtain ⟨stack, _, rfl⟩ := resembles
  rfl

theorem Resembles.step (resembles : first.Resembles second) (limit : Nat) (answer : Heading) :
    (first.step limit answer).Resembles (second.step limit answer) := by
  have verdict := resembles.verdict limit
  cases decided : second.verdict limit with
  | some halt =>
    obtain ⟨stack, same, rfl⟩ := resembles
    rw [step_of_verdict decided, step_of_verdict (verdict.trans decided)]
    exact ⟨stack, same, rfl⟩
  | none =>
    rw [step_of_running decided, step_of_running (verdict.trans decided)]
    exact resembles.cycle answer

theorem Resembles.asks (resembles : first.Resembles second) (limit : Nat) :
    first.asks limit = second.asks limit := by
  obtain ⟨stack, _, rfl⟩ := resembles
  rfl

theorem Resembles.halt (resembles : first.Resembles second) : first.halt = second.halt := by
  obtain ⟨stack, _, rfl⟩ := resembles
  rfl

theorem Resembles.heading (resembles : first.Resembles second) :
    first.pointer.heading = second.pointer.heading := by
  obtain ⟨stack, _, rfl⟩ := resembles
  rfl

theorem resembles_iff : first.Resembles second ↔
    first = {second with stack := first.stack} ∧
      (first.stack.Pads second.stack ∨ second.stack.Pads first.stack) := by
  rw [← Stack.sameValues_iff_pads]
  constructor
  · rintro ⟨stack, same, rfl⟩
    exact ⟨rfl, same⟩
  · rintro ⟨rest, same⟩
    exact ⟨first.stack, same, rest⟩

end Machine

namespace Session

variable {σ : Type} [DirectionSource σ] {first second : Session σ}

structure Resembles (first second : Session σ) : Prop where
  limit : first.config.stepLimit = second.config.stepLimit
  machine : first.machine.Resembles second.machine
  directions : first.directions = second.directions

theorem Resembles.proceed (resembles : first.Resembles second) :
    first.proceed.machine.Resembles second.proceed.machine ∧
      first.proceed.directions = second.proceed.directions := by
  simp only [Session.proceed, resembles.limit, resembles.machine.asks, resembles.directions,
    resembles.machine.heading]
  split <;> exact ⟨resembles.machine.step .., rfl⟩

theorem Resembles.step (resembles : first.Resembles second) : first.step.Resembles second.step := by
  have halt := resembles.machine.halt
  by_cases running : second.machine.halt = none
  · obtain ⟨machine, directions⟩ := resembles.proceed
    obtain ⟨firstMachine, firstDirections⟩ := step_outside (halt.trans running)
    obtain ⟨secondMachine, secondDirections⟩ := step_outside running
    refine ⟨?_, ?_, ?_⟩
    · rw [step_config, step_config, resembles.limit]
    · rwa [firstMachine, secondMachine]
    · rw [firstDirections, secondDirections, directions]
  · rwa [step_of_halted running, step_of_halted (halt ▸ running)]

theorem Resembles.after (resembles : first.Resembles second) (count : Nat) :
    first.replies (List.replicate count .step) = second.replies (List.replicate count .step) ∧
      (first.after (List.replicate count .step)).Resembles
        (second.after (List.replicate count .step)) := by
  induction count generalizing first second with
  | zero => exact ⟨rfl, resembles⟩
  | succ count ih =>
    have stepped := resembles.step
    obtain ⟨replies, last⟩ := ih stepped
    refine ⟨?_, last⟩
    simp only [List.replicate_succ, Session.replies, perform, stepped.machine.halt, replies]

/-- Zeros at the bottom of the stack make no difference, however many steps are taken. The
replies are the same, and the machines still differ by nothing but such zeros. -/
theorem bottom_zeros_unnoticed (first second : Session σ)
    (limit : first.config.stepLimit = second.config.stepLimit)
    (directions : first.directions = second.directions)
    (rest : first.machine = {second.machine with stack := first.machine.stack})
    (zeros : first.machine.stack.Pads second.machine.stack ∨
      second.machine.stack.Pads first.machine.stack) (count : Nat) :
    let steps := List.replicate count Command.step
    let one := first.after steps
    let other := second.after steps
    first.replies steps = second.replies steps ∧
    one.machine = {other.machine with stack := one.machine.stack} ∧
    (one.machine.stack.Pads other.machine.stack ∨ other.machine.stack.Pads one.machine.stack) ∧
    one.directions = other.directions := by
  intro steps one other
  have resembles : first.Resembles second :=
    ⟨limit, Machine.resembles_iff.mpr ⟨rest, zeros⟩, directions⟩
  obtain ⟨replies, last⟩ := resembles.after count
  obtain ⟨rest, zeros⟩ := Machine.resembles_iff.mp last.machine
  exact ⟨replies, rest, zeros, last.directions⟩

/-- A swap and a put that reach below the bottom of one of the stacks. -/
theorem bottom_zeros_unnoticed_of_put :
    let bare := Session.new "5\\p:.g,@" ⟨100, true, 10000⟩ (Script.ofList [])
    let padded := {bare with machine := {bare.machine with stack := .ofList [0, 0, 0, 0, 0]}}
    let one := bare.after (List.replicate 8 .step)
    let other := padded.after (List.replicate 8 .step)
    padded.machine.stack.Pads bare.machine.stack ∧
    one.machine.field.modifiedCells = [(5, 0, '\x00')] ∧
    one.machine.stack ≠ other.machine.stack ∧
    one.machine = {other.machine with stack := one.machine.stack} ∧
    (one.machine.stack.Pads other.machine.stack ∨ other.machine.stack.Pads one.machine.stack) := by
  intro bare padded one other
  have pads : padded.machine.stack.Pads bare.machine.stack := ⟨5, by decide +kernel⟩
  have written : one.machine.field.modifiedCells = [(5, 0, '\x00')] := by decide +kernel
  have differ : one.machine.stack ≠ other.machine.stack := by decide +kernel
  have unnoticed := bottom_zeros_unnoticed bare padded (by decide +kernel) rfl
    (by decide +kernel) (.inr pads) 8
  -- From here on the two sessions need not be computed any more.
  clear_value padded bare
  exact ⟨pads, written, differ, unnoticed.2.1, unnoticed.2.2.1⟩

end Session

end Befunge
