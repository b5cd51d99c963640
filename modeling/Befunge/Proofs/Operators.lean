import Befunge.Proofs.Memory
import Befunge.Proofs.Underflow

/-! The arithmetic of programs. An operator computes with whole numbers of any size and keeps its
result modulo 2 ^ 64. Of all quotients only one does not fit into 64 bits. -/
namespace Befunge

theorem toInt_eq_zero_iff {value : Int64} : value.toInt = 0 ↔ value = 0 := Int64.toInt_inj (y := 0)

namespace Operator

def symbol : Operator → Char
  | add => '+'
  | subtract => '-'
  | multiply => '*'
  | divide => '/'
  | modulo => '%'

theorem decode_symbol (operator : Operator) :
    Instruction.decode operator.symbol = .compute operator := by
  cases operator <;> rfl

/-- The operator on whole numbers. Division rounds toward zero. -/
def ideal : Operator → ℤ → ℤ → ℤ
  | add, below, top => below + top
  | subtract, below, top => below - top
  | multiply, below, top => below * top
  | divide, below, top => below.tdiv top
  | modulo, below, top => if top = 0 then 0 else below.tmod top

variable {below top : Int64}

theorem toInt_remainder (nonzero : top ≠ 0) :
    (modulo.apply below top).toInt = below.toInt.tmod top.toInt := by
  rw [apply, if_neg nonzero, Int64.toInt_mod]

theorem toInt_apply (operator : Operator) (below top : Int64) :
    (operator.apply below top).toInt =
      (operator.ideal below.toInt top.toInt).bmod (2 ^ 64) := by
  cases operator with
  | add => exact Int64.toInt_add below top
  | subtract => exact Int64.toInt_sub below top
  | multiply => exact Int64.toInt_mul below top
  | divide =>
    by_cases zero : top = 0
    · simp [apply, ideal, zero]
    · rw [apply, if_neg zero, Int64.toInt_div, ideal]
  | modulo =>
    by_cases zero : top = 0
    · simp [apply, ideal, zero]
    · -- A remainder fits as it is, so that reducing it changes nothing.
      rw [ideal, if_neg (toInt_eq_zero_iff.not.mpr zero), ← toInt_remainder zero]
      exact (Int64.toInt_bmod _).symm

theorem apply_modEq (operator : Operator) (below top : Int64) :
    (operator.apply below top).toInt ≡ operator.ideal below.toInt top.toInt [ZMOD 2 ^ 64] := by
  rw [toInt_apply]
  exact Int.bmod_emod

/-- No other value is congruent to the result. -/
theorem eq_apply_iff (operator : Operator) {value : Int64} : value = operator.apply below top ↔
    value.toInt ≡ operator.ideal below.toInt top.toInt [ZMOD 2 ^ 64] := by
  constructor
  · rintro rfl
    exact apply_modEq operator below top
  · intro congruent
    apply Int64.toInt_inj.mp
    calc value.toInt
      _ = value.toInt.bmod (2 ^ 64) := (Int64.toInt_bmod value).symm
      _ = (value.toInt % 2 ^ 64).bmod (2 ^ 64) := (Int.emod_bmod value.toInt (2 ^ 64)).symm
      _ = (operator.ideal below.toInt top.toInt % 2 ^ 64).bmod (2 ^ 64) := by rw [congruent]
      _ = (operator.ideal below.toInt top.toInt).bmod (2 ^ 64) := Int.emod_bmod _ (2 ^ 64)
      _ = (operator.apply below top).toInt := (toInt_apply operator below top).symm

theorem quotient_mul_add_remainder (nonzero : top ≠ 0) :
    (divide.apply below top).toInt * top.toInt + (modulo.apply below top).toInt ≡
      below.toInt [ZMOD 2 ^ 64] := by
  calc (divide.apply below top).toInt * top.toInt + (modulo.apply below top).toInt
    _ ≡ below.toInt.tdiv top.toInt * top.toInt + (modulo.apply below top).toInt [ZMOD 2 ^ 64] :=
        ((apply_modEq divide below top).mul_right _).add_right _
    _ = below.toInt.tdiv top.toInt * top.toInt + below.toInt.tmod top.toInt := by
        rw [toInt_remainder nonzero]
    _ = below.toInt := Int.tdiv_mul_add_tmod ..

theorem abs_remainder_lt (nonzero : top ≠ 0) :
    |(modulo.apply below top).toInt| < |top.toInt| := by
  have positive : 0 < top.toInt.natAbs :=
    Int.natAbs_pos.mpr (toInt_eq_zero_iff.not.mpr nonzero)
  rw [toInt_remainder nonzero, Int.abs_eq_natAbs, Int.abs_eq_natAbs, Int.natAbs_tmod]
  exact_mod_cast Nat.mod_lt _ positive

theorem sign_remainder (nonzero : top ≠ 0) :
    (modulo.apply below top).toInt = 0 ∨
      (modulo.apply below top).toInt.sign = below.toInt.sign := by
  rw [toInt_remainder nonzero, Int.sign_tmod]
  by_cases divides : top.toInt ∣ below.toInt
  · exact .inl (Int.tmod_eq_zero_of_dvd divides)
  · exact .inr (if_neg divides)

theorem overflows_iff :
    below.toInt = -2 ^ 63 ∧ top.toInt = -1 ↔ below = Int64.minValue ∧ top = -1 := by
  rw [← Int64.toInt_minValue, Int64.toInt_inj]
  exact and_congr_right fun _ => Int64.toInt_inj (y := -1)

theorem toInt_quotient (nonzero : top ≠ 0) (fits : ¬ (below.toInt = -2 ^ 63 ∧ top.toInt = -1)) :
    (divide.apply below top).toInt = below.toInt.tdiv top.toInt := by
  rw [apply, if_neg nonzero]
  rcases not_and_or.mp (overflows_iff.not.mp fits) with other | other
  · exact Int64.toInt_div_of_ne_left below top other
  · exact Int64.toInt_div_of_ne_right below top other

theorem toInt_of_overflow (overflows : below.toInt = -2 ^ 63 ∧ top.toInt = -1) :
    (divide.apply below top).toInt = -2 ^ 63 ∧ (modulo.apply below top).toInt = 0 := by
  obtain ⟨rfl, rfl⟩ := overflows_iff.mp overflows
  decide

theorem toInt_by_zero (zero : top = 0) :
    (divide.apply below top).toInt = 0 ∧ (modulo.apply below top).toInt = 0 := by
  simp [apply, zero]

end Operator

namespace Stack

theorem ofList_concat (values : List Int64) (value : Int64) :
    ofList (values ++ [value]) = (ofList values).push value := by
  simp [ofList, push]

theorem popPair_eq (stack : Stack) : stack.popPair =
    ((stack.value 1, stack.value 0), ofList (stack.toList.take (stack.depth - 2))) := by
  obtain ⟨values⟩ := stack
  match values with
  | [] => rfl
  | [_] => rfl
  | top :: below :: rest =>
    simp [popPair, peek, drop, value, ofList, toList, depth]

end Stack

namespace Session

variable {σ : Type} [DirectionSource σ] {session : Session σ}

/-- An operator puts one value in the place of two. -/
theorem Executes.operator {operator : Operator} (executes : session.Executes operator.symbol) :
    let machine := session.machine
    session.step.machine = {machine with
      pointer := machine.pointer.advance machine.field.width machine.field.height
      stack := .ofList (machine.stack.toList.take (machine.stack.depth - 2) ++
        [operator.apply (machine.stack.value 1) (machine.stack.value 0)])
      steps := machine.steps + 1} := by
  intro machine
  obtain ⟨answer, stepped⟩ := executes.step_machine
  rw [stepped, Operator.decode_symbol, Stack.ofList_concat]
  simp only [Machine.execute, Stack.popPair_eq]
  rfl

/-- Every operator takes two values off the stack, zeros where there are none, and leaves one for
them, whatever the values are. Sum, difference and product are right modulo 2 ^ 64. Quotient and
remainder are those of the division that rounds toward zero, apart from the one quotient that
does not fit, and both are zero if the divisor is. -/
theorem operators_total_and_exact (stack : Stack) : ∃ result : Operator → Int64,
    let below := (stack.value 1).toInt
    let top := (stack.value 0).toInt
    let quotient := (result .divide).toInt
    let remainder := (result .modulo).toInt
    (∀ (session : Session σ) (operator : Operator), session.machine.stack = stack →
      session.Executes operator.symbol →
      let machine := session.machine
      session.step.machine = {machine with
        pointer := machine.pointer.advance machine.field.width machine.field.height
        stack := .ofList (stack.toList.take (stack.depth - 2) ++ [result operator])
        steps := machine.steps + 1}) ∧
    (∀ value, value = result .add ↔ value.toInt ≡ below + top [ZMOD 2 ^ 64]) ∧
    (∀ value, value = result .subtract ↔ value.toInt ≡ below - top [ZMOD 2 ^ 64]) ∧
    (∀ value, value = result .multiply ↔ value.toInt ≡ below * top [ZMOD 2 ^ 64]) ∧
    (top ≠ 0 →
      quotient * top + remainder ≡ below [ZMOD 2 ^ 64] ∧
      |remainder| < |top| ∧
      (remainder = 0 ∨ remainder.sign = below.sign) ∧
      if below = -2 ^ 63 ∧ top = -1 then quotient = -2 ^ 63 ∧ remainder = 0
      else quotient = below.tdiv top) ∧
    (top = 0 → quotient = 0 ∧ remainder = 0) := by
  refine ⟨fun operator => operator.apply (stack.value 1) (stack.value 0), ?_⟩
  intro below top quotient remainder
  refine ⟨?_, fun _ => Operator.eq_apply_iff .add, fun _ => Operator.eq_apply_iff .subtract,
    fun _ => Operator.eq_apply_iff .multiply, ?_, ?_⟩
  · rintro session operator rfl executes
    exact executes.operator
  · intro divisor
    have nonzero : stack.value 0 ≠ 0 := toInt_eq_zero_iff.not.mp divisor
    refine ⟨Operator.quotient_mul_add_remainder nonzero, Operator.abs_remainder_lt nonzero,
      Operator.sign_remainder nonzero, ?_⟩
    split_ifs with overflows
    · exact Operator.toInt_of_overflow overflows
    · exact Operator.toInt_quotient nonzero overflows
  · intro divisor
    exact Operator.toInt_by_zero (toInt_eq_zero_iff.mp divisor)

/-- The quotient that does not fit, and a difference with a single value on the stack. -/
theorem operators_total_and_exact_of_overflow :
    let session (source : String) (values : List Int64) : Session Script :=
      let new := Session.new source ⟨100, true, 10000⟩ (Script.ofList [])
      {new with machine := {new.machine with stack := .ofList values}}
    let divides := session "/" [7, Int64.minValue, -1]
    let subtracts := session "-" [5]
    divides.Executes '/' ∧ divides.step.machine.stack = .ofList [7, Int64.minValue] ∧
    subtracts.Executes '-' ∧ subtracts.step.machine.stack = .ofList [-5] := by
  intro session divides subtracts
  have divided : divides.Executes '/' := by decide +kernel
  have subtracted : subtracts.Executes '-' := by decide +kernel
  refine ⟨divided, ?_, subtracted, ?_⟩
  · obtain ⟨result, stepped, _, _, _, division, _⟩ :=
      operators_total_and_exact (σ := Script) (.ofList [7, Int64.minValue, -1])
    obtain ⟨_, _, _, overflow⟩ := division (by decide)
    rw [if_pos (by decide)] at overflow
    have quotient : result .divide = Int64.minValue := Int64.toInt_inj.mp overflow.1
    rw [stepped divides .divide rfl divided, quotient]
    rfl
  · obtain ⟨result, stepped, _, difference, _⟩ :=
      operators_total_and_exact (σ := Script) (.ofList [5])
    have opposite : -5 = result .subtract := (difference (-5)).mpr (by decide)
    rw [stepped subtracts .subtract rfl subtracted, ← opposite]
    rfl

end Session

end Befunge
