import Befunge.Proofs.PrintLoop

/-! The playfield as a memory. A get finds what the last put to its place has stored there, and
where nothing was stored it finds what the program was built with. -/
namespace Befunge

namespace Text

/-- Codes of characters: all of Unicode without the surrogates. -/
def IsScalar (value : Int64) : Prop :=
  (0 ≤ value.toInt ∧ value.toInt ≤ 0xD7FF) ∨ (0xE000 ≤ value.toInt ∧ value.toInt ≤ 0x10FFFF)

instance (value : Int64) : Decidable (IsScalar value) := inferInstanceAs (Decidable (_ ∨ _))

theorem isSome_ofCode? (value : Int64) : (ofCode? value).isSome ↔ IsScalar value := by
  have clamped : value.toNatClampNeg = value.toInt.toNat := rfl
  have zero : (0 : Int64).toInt = 0 := rfl
  have valid : (0 ≤ value ∧ value.toNatClampNeg.isValidChar) ↔ IsScalar value := by
    rw [Int64.le_iff_toInt_le, zero, clamped, Nat.isValidChar, IsScalar]
    omega
  rw [ofCode?, ← valid]
  split_ifs with character
  · simp [character]
  · simp [character]

theorem code_of_ofCode? {value : Int64} {symbol : Char} (found : ofCode? value = some symbol) :
    code symbol = value := by
  rw [ofCode?] at found
  split_ifs at found with valid
  obtain rfl := Option.some.inj found
  have clamped : (value.toNatClampNeg : ℤ) = value.toInt :=
    Int.toNat_of_nonneg (Int64.le_iff_toInt_le.mp valid.1)
  have number : (Char.ofNat value.toNatClampNeg).toNat = value.toNatClampNeg := by
    rw [Char.ofNat, dif_pos valid.2]
    rfl
  apply Int64.toInt_inj.mp
  rw [toInt_code, number, clamped]

end Text

instance (extent : ℕ) (coordinate : Int64) : Decidable (OnAxis extent coordinate) :=
  inferInstanceAs (Decidable (_ ∧ _))

/-- What a put takes from the stack. -/
structure Put where
  value : Int64
  x : Int64
  y : Int64
  deriving DecidableEq

namespace Put

variable {put : Put} {puts : List Put}

def stores (x y : ℤ) (put : Put) : Bool :=
  decide (Text.IsScalar put.value ∧ put.x.toInt = x ∧ put.y.toInt = y)

def latest? (puts : List Put) (x y : ℤ) : Option Put := (puts.filter (stores x y)).getLast?

/-- What is found at a place of a memory that was the given playfield at first. -/
def remembered (built : Playfield) (puts : List Put) (x y : Int64) : Int64 :=
  if OnAxis built.width x ∧ OnAxis built.height y then
    match latest? puts x.toInt y.toInt with
    | some put => put.value
    | none => Text.code (built.read x y)
  else 0

def cell (put : Put) : Cell := ⟨(Text.ofCode? put.value).getD Text.replacement, true⟩

def write (field : Playfield) (put : Put) : Playfield :=
  ((Text.ofCode? put.value).bind (field.write? put.x put.y)).getD field

theorem code_cell (scalar : Text.IsScalar put.value) : Text.code put.cell.symbol = put.value := by
  obtain ⟨symbol, found⟩ := Option.isSome_iff_exists.mp ((Text.isSome_ofCode? _).mpr scalar)
  rw [cell, found]
  exact Text.code_of_ofCode? found

theorem stores_iff {x y : ℤ} :
    put.stores x y = true ↔ Text.IsScalar put.value ∧ put.x.toInt = x ∧ put.y.toInt = y :=
  decide_eq_true_iff

theorem scalar_of_latest? {x y : ℤ} (found : latest? puts x y = some put) :
    Text.IsScalar put.value :=
  (stores_iff.mp (List.mem_filter.mp (List.mem_of_getLast? found)).2).1

theorem isSome_latest? (puts : List Put) (x y : ℤ) :
    (latest? puts x y).isSome ↔ ∃ put ∈ puts, put.stores x y = true := by
  rw [latest?, List.getLast?_isSome, ne_eq, List.filter_eq_nil_iff]
  simp

theorem latest?_concat (puts : List Put) (put : Put) (x y : ℤ) :
    latest? (puts ++ [put]) x y = if put.stores x y then some put else latest? puts x y := by
  unfold latest?
  rw [List.filter_append, List.filter_singleton]
  split_ifs with stored
  · rw [stored, cond_true, List.getLast?_concat]
  · rw [Bool.eq_false_iff.mpr stored, cond_false, List.append_nil]

end Put

namespace Playfield

variable {field : Playfield}

theorem contains_iff_onAxis (field : Playfield) (x y : Int64) :
    field.contains x y = true ↔ OnAxis field.width x ∧ OnAxis field.height y :=
  (field.contains_iff ⟨x, y, .right⟩).trans
    ⟨fun within => ⟨within.x, within.y⟩, fun within => ⟨within.1, within.2⟩⟩

theorem natCast_of_contains {x y : Int64} (inside : field.contains x y = true) :
    (x.toNatClampNeg : ℤ) = x.toInt ∧ (y.toNatClampNeg : ℤ) = y.toInt := by
  obtain ⟨⟨left, _⟩, top, _⟩ := (field.contains_iff_onAxis x y).mp inside
  exact ⟨Int.toNat_of_nonneg left, Int.toNat_of_nonneg top⟩

theorem write_of_landed {put : Put} (scalar : Text.IsScalar put.value)
    (inside : field.contains put.x put.y = true) : Put.write field put =
      field.modify put.x.toNatClampNeg put.y.toNatClampNeg fun _ => put.cell := by
  obtain ⟨symbol, found⟩ := Option.isSome_iff_exists.mp ((Text.isSome_ofCode? _).mpr scalar)
  rw [Put.write, Put.cell, found, Option.bind_some, write?, if_pos inside]
  rfl

theorem write_of_missed {put : Put}
    (missed : ¬ (Text.IsScalar put.value ∧ field.contains put.x put.y = true)) :
    Put.write field put = field := by
  unfold Put.write
  cases found : Text.ofCode? put.value with
  | none => rfl
  | some symbol =>
    have scalar : Text.IsScalar put.value := by simp [← Text.isSome_ofCode?, found]
    rw [Option.bind_some, write?, if_neg fun inside => missed ⟨scalar, inside⟩]
    rfl

theorem write_overlays (field : Playfield) (put : Put) : (Put.write field put).Overlays field := by
  unfold Put.write
  cases written : (Text.ofCode? put.value).bind (field.write? put.x put.y) with
  | none => exact .refl field
  | some next =>
    obtain ⟨symbol, _, written⟩ := Option.bind_eq_some_iff.mp written
    exact write?_overlays written

theorem get?_write (field : Playfield) (put : Put) (x y : ℕ) :
    (Put.write field put).get? x y =
      (field.get? x y).map fun cell => if put.stores x y then put.cell else cell := by
  by_cases landed : Text.IsScalar put.value ∧ field.contains put.x put.y = true
  · obtain ⟨scalar, inside⟩ := landed
    obtain ⟨column, row⟩ := natCast_of_contains inside
    have here : put.stores x y = true ↔ x = put.x.toNatClampNeg ∧ y = put.y.toNatClampNeg := by
      rw [Put.stores_iff]
      simp only [scalar, true_and]
      omega
    rw [write_of_landed scalar inside, Raster.get?_modify]
    simp only [← here]
    split_ifs
    · rfl
    · exact Option.map_id'.symm
  · -- A character that does not land was put outside, where there is no cell to find either.
    have nowhere (stored : put.stores x y = true) : field.get? x y = none := by
      obtain ⟨scalar, column, row⟩ := Put.stores_iff.mp stored
      by_contra present
      have bounds := (field.isSome_get? x y).mp (Option.isSome_iff_ne_none.mpr present)
      refine landed ⟨scalar, (field.contains_iff_onAxis _ _).mpr ⟨?_, ?_⟩⟩ <;>
        simp only [OnAxis] <;> omega
    rw [write_of_missed landed]
    split_ifs with stored
    · rw [nowhere stored]
      rfl
    · exact Option.map_id'.symm

/-- Of several puts to one place the last one is seen. -/
theorem get?_foldl_write (field : Playfield) (puts : List Put) (x y : ℕ) :
    (puts.foldl Put.write field).get? x y = (field.get? x y).map fun cell =>
      ((Put.latest? puts x y).map Put.cell).getD cell := by
  induction puts using List.reverseRecOn with
  | nil => exact Option.map_id'.symm
  | append_singleton puts put ih =>
    rw [List.foldl_concat, get?_write, ih, Option.map_map, Put.latest?_concat]
    apply Option.map_congr
    intro cell _
    simp only [Function.comp_apply]
    split_ifs <;> rfl

theorem foldl_write_overlays (field : Playfield) (puts : List Put) :
    (puts.foldl Put.write field).Overlays field := by
  induction puts generalizing field with
  | nil => exact .refl field
  | cons put puts ih => exact (ih _).trans (field.write_overlays put)

theorem mem_modifiedCells_foldl_write (source : String) (puts : List Put) (x y : ℕ) :
    (∃ symbol, (x, y, symbol) ∈ (puts.foldl Put.write (build source)).modifiedCells) ↔
      (x < (build source).width ∧ y < (build source).height) ∧
        ∃ put ∈ puts, put.stores x y = true := by
  simp only [mem_modifiedCells, get?_foldl_write]
  rw [← Raster.isSome_get?, ← Put.isSome_latest?]
  cases found : (build source).get? x y with
  | none => simp
  | some cell =>
    have original := modified_of_build found
    cases Put.latest? puts x y with
    | none =>
      have unmodified (symbol : Char) : cell ≠ ⟨symbol, true⟩ := by
        rintro rfl
        cases original
      simpa using unmodified
    | some put => simp [Put.cell]

def fetch (field : Playfield) (x y : Int64) : Int64 :=
  match field.cell? x y with
  | some cell => Text.code cell.symbol
  | none => 0

theorem fetch_foldl_write (field : Playfield) (puts : List Put) (x y : Int64) :
    fetch (puts.foldl Put.write field) x y = Put.remembered field puts x y := by
  have overlays := field.foldl_write_overlays puts
  have same : (puts.foldl Put.write field).contains x y = field.contains x y := by
    rw [contains, contains, overlays.width, overlays.height]
  simp only [fetch, cell?, same, Put.remembered, ← contains_iff_onAxis]
  by_cases inside : field.contains x y = true
  · obtain ⟨column, row⟩ := natCast_of_contains inside
    have present : (field.cell? x y).isSome := by rw [isSome_cell?, inside]
    obtain ⟨cell, found⟩ := Option.isSome_iff_exists.mp present
    rw [if_pos inside, if_pos inside, get?_foldl_write, column, row, read, found]
    rw [cell?, if_pos inside] at found
    rw [found]
    cases latest : Put.latest? puts x.toInt y.toInt with
    | none => rfl
    | some put => exact Put.code_cell (Put.scalar_of_latest? latest)
  · rw [if_neg inside, if_neg inside]

end Playfield

namespace Machine

variable {machine : Machine}

def operands (machine : Machine) : Put :=
  ⟨machine.stack.drop.drop.peek, machine.stack.drop.peek, machine.stack.peek⟩

theorem put_field (machine : Machine) :
    machine.put.field = Put.write machine.field machine.operands := by
  rw [put_eq]
  rfl

theorem put_stack (machine : Machine) : machine.put.stack = machine.stack.drop.drop.drop := by
  rw [put_eq]

theorem get_stack (machine : Machine) : machine.get.stack =
    machine.stack.drop.drop.push (machine.field.fetch machine.stack.drop.peek machine.stack.peek) :=
  rfl

end Machine

namespace Session

variable {σ : Type} [DirectionSource σ] {session : Session σ}

/-- The next step carries out the instruction that has the given symbol. -/
def Executes (session : Session σ) (symbol : Char) : Prop :=
  session.machine.halt = none ∧ session.machine.verdict session.config.stepLimit = none ∧
    session.machine.stringMode = false ∧ session.machine.symbol = symbol

instance (session : Session σ) (symbol : Char) : Decidable (session.Executes symbol) :=
  inferInstanceAs (Decidable (_ ∧ _))

def puts : ℕ → Session σ → List Put
  | 0, _ => []
  | count + 1, session =>
    if session.Executes 'p' then session.machine.operands :: puts count session.step
    else puts count session.step

/-- The step is one cycle, in which the instruction has some answer at hand. -/
theorem Executes.step_machine {symbol : Char} (executes : session.Executes symbol) : ∃ answer,
    let executed := session.machine.execute answer (.decode symbol)
    session.step.machine = {executed.advance with steps := executed.steps + 1} := by
  obtain ⟨running, undecided, plain, here⟩ := executes
  obtain ⟨answer, _, proceeded, _⟩ := session.proceed_eq
  have literal : session.machine.isLiteral = false := by simp [Machine.isLiteral, plain]
  refine ⟨answer, ?_⟩
  rw [(step_outside running).1, proceeded]
  simp only [Machine.step_of_running undecided, Machine.cycle_of_instruction literal
    (congrArg Instruction.decode here)]

theorem Executes.step {symbol : Char} (executes : session.Executes symbol) : ∃ answer,
    session.step.machine.field = (session.machine.execute answer (.decode symbol)).field ∧
      session.step.machine.stack = (session.machine.execute answer (.decode symbol)).stack := by
  obtain ⟨answer, machine⟩ := executes.step_machine
  refine ⟨answer, ?_⟩
  rw [machine]
  exact ⟨rfl, rfl⟩

theorem step_field_of_put (executes : session.Executes 'p') :
    session.step.machine.field = Put.write session.machine.field session.machine.operands := by
  obtain ⟨answer, field, _⟩ := executes.step
  exact field.trans session.machine.put_field

theorem step_field_of_other (other : ¬ session.Executes 'p') :
    session.step.machine.field = session.machine.field := by
  by_cases running : session.machine.halt = none
  · obtain ⟨answer, _, proceeded, _⟩ := session.proceed_eq
    have misses : session.machine.lands session.config.stepLimit = false := by
      rw [Bool.eq_false_iff]
      intro lands
      obtain ⟨undecided, plain, here, _⟩ := Machine.lands_iff.mp lands
      exact other ⟨running, undecided, plain, here⟩
    rw [(step_outside running).1, proceeded]
    exact Machine.step_field misses answer
  · rw [step_of_halted running]

theorem iterate_step_field (session : Session σ) (count : ℕ) :
    (step^[count] session).machine.field =
      (session.puts count).foldl Put.write session.machine.field := by
  induction count generalizing session with
  | zero => rfl
  | succ count ih =>
    rw [Function.iterate_succ_apply, ih, puts]
    split_ifs with executes
    · rw [List.foldl_cons, step_field_of_put executes]
    · rw [step_field_of_other executes]

/-- The playfield of a run is a memory. A get finds what was put last at its place, as long as that
is a character, or else the symbol that was built there. The cells listed as modified are those
with such a put, and any other put only takes its operands. -/
theorem playfield_is_memory (source : String) (config : Config) (directions : σ) (count : ℕ) :
    let start := Session.new source config directions
    let session := Session.step^[count] start
    let built := Playfield.build source
    let puts := start.puts count
    (∀ stack : Stack, ({session.machine with stack} : Machine).get.stack =
      stack.drop.drop.push (Put.remembered built puts stack.drop.peek stack.peek)) ∧
    (session.Executes 'g' → session.step.machine.stack =
      session.machine.stack.drop.drop.push (Put.remembered built puts
        session.machine.stack.drop.peek session.machine.stack.peek)) ∧
    (∀ x y : ℕ, (∃ symbol, (x, y, symbol) ∈ session.machine.field.modifiedCells) ↔
      (x < built.width ∧ y < built.height) ∧ ∃ put ∈ puts,
        Text.IsScalar put.value ∧ put.x.toInt = x ∧ put.y.toInt = y) ∧
    (session.Executes 'p' →
      let put := session.machine.operands
      session.step.machine.stack = session.machine.stack.drop.drop.drop ∧
      (¬ (OnAxis built.width put.x ∧ OnAxis built.height put.y) ∨ ¬ Text.IsScalar put.value →
        session.step.machine.field = session.machine.field)) := by
  intro start session built puts
  have field : session.machine.field = puts.foldl Put.write built := by
    rw [start.iterate_step_field count, new_machine]
    rfl
  have fetched (x y : Int64) : session.machine.field.fetch x y = Put.remembered built puts x y := by
    rw [field, Playfield.fetch_foldl_write]
  refine ⟨?_, ?_, ?_, ?_⟩
  · intro stack
    rw [Machine.get_stack, fetched]
  · intro executes
    obtain ⟨answer, _, stack⟩ := executes.step
    rw [stack, ← fetched]
    rfl
  · intro x y
    rw [field, Playfield.mem_modifiedCells_foldl_write]
    simp only [Put.stores_iff]
    rfl
  · intro executes put
    obtain ⟨answer, _, stack⟩ := executes.step
    refine ⟨stack.trans session.machine.put_stack, fun missed => ?_⟩
    have overlays : session.machine.field.Overlays built := field ▸ built.foldl_write_overlays puts
    rw [step_field_of_put executes]
    apply Playfield.write_of_missed
    rw [Playfield.contains_iff_onAxis, overlays.width, overlays.height]
    tauto

end Session

end Befunge
