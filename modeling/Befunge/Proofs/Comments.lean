import Befunge.Proofs.Confinement
import Befunge.Proofs.Draws

/-! Comments. Symbols that mean nothing may be replaced by others that mean nothing, and as long
as a program does not look at its symbols it cannot tell the difference. -/
namespace Befunge

namespace Instruction

/-- The symbol that an instruction is written with. Nothing is written with many. -/
def spelling? : Instruction → Option Char
  | digit value => some (Nat.digitChar value)
  | compute .add => some '+'
  | compute .subtract => some '-'
  | compute .multiply => some '*'
  | compute .divide => some '/'
  | compute .modulo => some '%'
  | negate => some '!'
  | greater => some '\x60'
  | go .right => some '>'
  | go .left => some '<'
  | go .up => some '^'
  | go .down => some 'v'
  | random => some '?'
  | horizontalIf => some '_'
  | verticalIf => some '|'
  | stringMode => some '\x22'
  | duplicate => some ':'
  | swap => some '\\'
  | discard => some '$'
  | outputInteger => some '.'
  | outputCharacter => some ','
  | trampoline => some '#'
  | put => some 'p'
  | get => some 'g'
  | halt => some '@'
  | blank => none

theorem spelling?_decode (symbol : Char) :
    spelling? (decode symbol) = if decode symbol = blank then none else some symbol := by
  unfold decode
  split <;> rfl

theorem eq_of_decode {first second : Char} (same : decode first = decode second)
    (meaningful : decode first ≠ blank) : first = second := by
  have one := spelling?_decode first
  have other := spelling?_decode second
  rw [if_neg meaningful] at one
  rw [← same, if_neg meaningful, one] at other
  exact Option.some.inj other

theorem beq_of_decode {first second symbol : Char} (same : decode first = decode second)
    (meaningful : decode symbol ≠ blank) : (first == symbol) = (second == symbol) := by
  rw [Bool.eq_iff_iff, beq_iff_eq, beq_iff_eq]
  constructor
  · rintro rfl
    exact (eq_of_decode same meaningful).symm
  · rintro rfl
    exact eq_of_decode same (same ▸ meaningful)

end Instruction

/-- What a cell means, and its symbol if the program has written it. -/
def Cell.reading (cell : Cell) : Instruction × Option Char :=
  (.decode cell.symbol, if cell.modified then some cell.symbol else none)

namespace Playfield

/-- The playfields are of one size and hold the same instructions. They may differ in symbols
without a meaning, but not in those that were written. -/
structure SameCode (first second : Playfield) : Prop where
  width : first.width = second.width
  height : first.height = second.height
  cells : ∀ x y, (first.get? x y).map Cell.reading = (second.get? x y).map Cell.reading

variable {first second : Playfield}

theorem SameCode.decoded (same : first.SameCode second) (x y : ℕ) :
    (first.get? x y).map (Instruction.decode ∘ Cell.symbol) =
      (second.get? x y).map (Instruction.decode ∘ Cell.symbol) := by
  simpa [Function.comp_def, Cell.reading] using congrArg (Option.map Prod.fst) (same.cells x y)

theorem SameCode.contains (same : first.SameCode second) (x y : Int64) :
    first.contains x y = second.contains x y := by
  rw [Playfield.contains, Playfield.contains, same.width, same.height]

theorem SameCode.isEmpty (same : first.SameCode second) : first.isEmpty = second.isEmpty := by
  rw [Playfield.isEmpty, Playfield.isEmpty, same.width, same.height]

theorem decode_read (field : Playfield) (x y : Int64) : Instruction.decode (field.read x y) =
    ((field.cell? x y).map (Instruction.decode ∘ Cell.symbol)).getD .blank := by
  rw [read]
  cases field.cell? x y <;> rfl

theorem SameCode.decode_read (same : first.SameCode second) (x y : Int64) :
    Instruction.decode (first.read x y) = Instruction.decode (second.read x y) := by
  rw [Playfield.decode_read, Playfield.decode_read, cell?, cell?, same.contains]
  split
  · rw [same.decoded]
  · rfl

theorem SameCode.write? (same : first.SameCode second) (x y : Int64) (symbol : Char) :
    Option.Rel SameCode (first.write? x y symbol) (second.write? x y symbol) := by
  rw [Playfield.write?, Playfield.write?, same.contains]
  split
  · refine .some ⟨same.width, ?_, ?_⟩
    · rw [Raster.height_modify, Raster.height_modify, same.height]
    · intro column row
      rw [Raster.get?_modify, Raster.get?_modify]
      split
      · have written := congrArg (Option.map fun _ => Cell.reading ⟨symbol, true⟩)
          (same.cells column row)
        simpa [Function.comp_def] using written
      · exact same.cells column row
  · exact .none

def readings (field : Playfield) : List (List (Instruction × Option Char)) :=
  field.rows.toList.map fun row => row.toList.map Cell.reading

theorem getElem?_readings (field : Playfield) (x y : ℕ) :
    (field.readings[y]?.bind fun row => row[x]?) = (field.get? x y).map Cell.reading := by
  simp only [readings, Raster.get?, List.getElem?_map, Array.getElem?_toList]
  cases field.rows[y]? <;> simp

theorem SameCode.readings (same : first.SameCode second) : first.readings = second.readings := by
  have rows : first.rows.size = second.rows.size := same.height
  apply List.ext_getElem
  · simpa [Playfield.readings] using rows
  · intro y above below
    apply List.ext_getElem?
    intro x
    have cell := same.cells x y
    rw [← getElem?_readings, ← getElem?_readings, List.getElem?_eq_getElem above,
      List.getElem?_eq_getElem below] at cell
    exact cell

theorem modifiedCells_eq (field : Playfield) : field.modifiedCells =
    field.readings.zipIdx.flatMap fun row => row.1.zipIdx.filterMap fun entry =>
      entry.1.2.map fun symbol => (entry.2, row.2, symbol) := by
  have row (cells : Array Cell) (y : ℕ) :
      (cells.toList.zipIdx.filterMap fun entry =>
        if entry.1.modified then some (entry.2, y, entry.1.symbol) else none) =
      (cells.toList.map Cell.reading).zipIdx.filterMap fun entry =>
        entry.1.2.map fun symbol => (entry.2, y, symbol) := by
    rw [List.zipIdx_map, List.filterMap_map]
    congr 1
    funext entry
    by_cases modified : entry.1.modified = true <;> simp [Cell.reading, modified]
  rw [readings, List.zipIdx_map, List.flatMap_map, modifiedCells]
  congr 1
  funext entry
  exact row entry.1 entry.2

theorem SameCode.modifiedCells (same : first.SameCode second) :
    first.modifiedCells = second.modifiedCells := by
  rw [modifiedCells_eq, modifiedCells_eq, same.readings]

theorem SameCode.footprint (same : first.SameCode second) :
    first.footprint = second.footprint := by
  rw [Playfield.footprint, Playfield.footprint, same.width, same.height, modifiedCount_eq_length,
    modifiedCount_eq_length, same.modifiedCells]

/-- In a playfield that was just built, nothing has been written. -/
theorem build_sameCode {one other : String} (width : (build one).width = (build other).width)
    (height : (build one).height = (build other).height)
    (decoded : ∀ x < (build one).width, ∀ y < (build one).height,
      ((build one).get? x y).map (Instruction.decode ∘ Cell.symbol) =
        ((build other).get? x y).map (Instruction.decode ∘ Cell.symbol)) :
    (build one).SameCode (build other) := by
  have fresh (source : String) (x y : ℕ) : ((build source).get? x y).map Cell.reading =
      ((build source).get? x y).map fun cell => (Instruction.decode cell.symbol, none) := by
    cases found : (build source).get? x y with
    | none => rfl
    | some cell => simp [Cell.reading, modified_of_build found]
  refine ⟨width, height, fun x y => ?_⟩
  by_cases inside : x < (build one).width ∧ y < (build one).height
  · have paired := congrArg (Option.map fun instruction => (instruction, (none : Option Char)))
      (decoded x inside.1 y inside.2)
    simpa [fresh, Function.comp_def] using paired
  · have absent := (Raster.isSome_get? (build one) x y).not.mpr inside
    rw [width, height, ← Raster.isSome_get?] at inside
    rw [Option.not_isSome_iff_eq_none.mp absent, Option.not_isSome_iff_eq_none.mp inside]

end Playfield

namespace Machine

/-- The machines differ at most in symbols without a meaning, and are outside string mode. -/
def SameCode (first second : Machine) : Prop :=
  second.stringMode = false ∧
    ∃ field : Playfield, field.SameCode second.field ∧ first = {second with field}

/-- The next cycle neither reads a symbol as a number nor enters string mode. -/
def Blind (machine : Machine) : Prop := machine.symbol ≠ 'g' ∧ machine.symbol ≠ '\x22'

variable {first second : Machine} {limit : ℕ}

theorem SameCode.decode_symbol (same : first.SameCode second) :
    Instruction.decode first.symbol = Instruction.decode second.symbol := by
  obtain ⟨_, field, cells, rfl⟩ := same
  exact cells.decode_read _ _

theorem SameCode.verdict (same : first.SameCode second) (limit : ℕ) :
    first.verdict limit = second.verdict limit := by
  have terminator : (first.symbol == '@') = (second.symbol == '@') :=
    Instruction.beq_of_decode same.decode_symbol (by decide)
  obtain ⟨_, field, cells, rfl⟩ := same
  rw [Machine.verdict, Machine.verdict, terminator, cells.isEmpty]

theorem SameCode.asks (same : first.SameCode second) (limit : ℕ) :
    first.asks limit = second.asks limit := by
  have request : (first.symbol == '?') = (second.symbol == '?') :=
    Instruction.beq_of_decode same.decode_symbol (by decide)
  have verdict := same.verdict limit
  obtain ⟨_, field, cells, rfl⟩ := same
  rw [Machine.asks, Machine.asks, request, verdict]

theorem SameCode.written? (same : first.SameCode second) :
    Option.Rel Playfield.SameCode first.written? second.written? := by
  obtain ⟨_, field, cells, rfl⟩ := same
  simp only [Machine.written?]
  cases Text.ofCode? _ with
  | none => exact .none
  | some symbol => exact cells.write? _ _ symbol

theorem SameCode.lands (same : first.SameCode second) (limit : ℕ) :
    first.lands limit = second.lands limit := by
  have put : (first.symbol == 'p') = (second.symbol == 'p') :=
    Instruction.beq_of_decode same.decode_symbol (by decide)
  have verdict := same.verdict limit
  have written : first.written?.isSome = second.written?.isSome := by
    have written := same.written?
    generalize first.written? = one, second.written? = other at written
    cases written <;> rfl
  obtain ⟨_, field, cells, rfl⟩ := same
  rw [Machine.lands, Machine.lands, put, verdict, written]

theorem SameCode.execute (same : first.SameCode second) (answer : Heading)
    {instruction : Instruction} (unread : instruction ≠ .get) (plain : instruction ≠ .stringMode) :
    (first.execute answer instruction).SameCode (second.execute answer instruction) := by
  have written := same.written?
  obtain ⟨mode, field, cells, rfl⟩ := same
  cases instruction with
  | get | stringMode => contradiction
  | trampoline =>
    refine ⟨mode, field, cells, ?_⟩
    simp only [Machine.execute, advance, cells.width, cells.height]
  | put =>
    simp only [Machine.execute, put]
    generalize Machine.written? _ = one, second.written? = other at written
    cases written with
    | none => exact ⟨mode, field, cells, rfl⟩
    | some written => exact ⟨mode, _, written, rfl⟩
  | _ => exact ⟨mode, field, cells, rfl⟩

theorem SameCode.cycle (same : first.SameCode second) (blind : first.Blind) (answer : Heading) :
    (first.cycle answer).SameCode (second.cycle answer) := by
  have decoded := same.decode_symbol
  have mode : first.stringMode = false ∧ second.stringMode = false := by
    obtain ⟨mode, field, _, rfl⟩ := same
    exact ⟨mode, mode⟩
  have unread : Instruction.decode first.symbol ≠ .get := by
    intro get
    exact blind.1 (Instruction.eq_of_decode (get.trans rfl) (by simp [get]))
  have plain : Instruction.decode first.symbol ≠ .stringMode := by
    intro quote
    exact blind.2 (Instruction.eq_of_decode (quote.trans rfl) (by simp [quote]))
  have executed := same.execute answer unread plain
  have dispatched : (first.dispatch answer).SameCode (second.dispatch answer) := by
    simpa [Machine.dispatch, isLiteral, mode, ← decoded] using executed
  obtain ⟨mode, field, cells, next⟩ := dispatched
  refine ⟨mode, field, cells, ?_⟩
  simp only [Machine.cycle, advance, next, cells.width, cells.height]

theorem SameCode.step (same : first.SameCode second)
    (blind : first.verdict limit = none → first.Blind) (answer : Heading) :
    (first.step limit answer).SameCode (second.step limit answer) := by
  have verdict := same.verdict limit
  cases decided : second.verdict limit with
  | some halt =>
    obtain ⟨mode, field, cells, rfl⟩ := same
    rw [step_of_verdict decided, step_of_verdict (verdict.trans decided)]
    exact ⟨mode, field, cells, rfl⟩
  | none =>
    rw [step_of_running decided, step_of_running (verdict.trans decided)]
    exact same.cycle (blind (verdict.trans decided)) answer

end Machine

structure Edition.SameCode (first second : Edition) : Prop where
  number : first.number = second.number
  field : first.field.SameCode second.field

/-- The snapshots cost the same, wherever they are recorded. -/
structure Snapshot.SameCost (first second : Snapshot) : Prop where
  edition : first.edition = second.edition
  machine : first.machine.footprint = second.machine.footprint
  field : first.machine.field.footprint = second.machine.field.footprint

namespace Timeline

/-- The timelines are of one length and have used up the same, and so they will go on. -/
structure SameCost (first second : Timeline) : Prop where
  budget : first.budget = second.budget
  length : first.length = second.length
  usage : first.usage = second.usage
  latest : first.snapshots.back?.map Snapshot.edition = second.snapshots.back?.map Snapshot.edition

variable {first second : Timeline} {one other : Snapshot}

theorem SameCost.cost (same : first.SameCost second) (snapshots : one.SameCost other) :
    first.cost one = second.cost other := by
  have shared : (first.snapshots.back?.any (·.edition == one.edition)) =
      second.snapshots.back?.any (·.edition == other.edition) := by
    have latest := congrArg (Option.any (· == one.edition)) same.latest
    rw [Option.any_map, Option.any_map] at latest
    rw [← snapshots.edition]
    exact latest
  rw [Timeline.cost, Timeline.cost, charge, charge, shared, snapshots.machine, snapshots.field]

theorem SameCost.affords (same : first.SameCost second) (snapshots : one.SameCost other) :
    first.affords one = second.affords other := by
  rw [Timeline.affords, Timeline.affords, same.cost snapshots, same.usage, same.budget]

theorem SameCost.append (same : first.SameCost second) (snapshots : one.SameCost other) :
    (first.append one).SameCost (second.append other) where
  budget := same.budget
  length := by simpa [Timeline.append, Timeline.length] using same.length
  usage := by
    have cost := same.cost snapshots
    simp only [Timeline.append, cost, same.usage]
  latest := by simp [Timeline.append, snapshots.edition]

end Timeline

namespace Session

variable {σ : Type} {first second : Session σ}

/-- The sessions differ at most in symbols without a meaning. Neither has been moved back. -/
structure SameCode (first second : Session σ) : Prop where
  config : first.config = second.config
  machine : first.machine.SameCode second.machine
  directions : first.directions = second.directions
  timeline : first.timeline.SameCost second.timeline
  position : first.position = second.position
  atSnapshot : first.atSnapshot = second.atSnapshot
  truncated : first.truncated = second.truncated
  shared : Option.Rel Edition.SameCode first.shared second.shared
  editions : first.editions = second.editions
  latest : first.atSnapshot = true → first.position + 1 = first.timeline.length

theorem SameCode.publish (same : first.SameCode second) :
    first.publish.1.SameCode second.publish.1 ∧ first.publish.2.SameCode second.publish.2 := by
  have fields : first.machine.field.SameCode second.machine.field := by
    obtain ⟨_, field, cells, machine⟩ := same.machine
    rwa [machine]
  have shared := same.shared
  cases one : first.shared <;> cases other : second.shared <;> rw [one, other] at shared <;>
    cases shared
  · have edition : Edition.SameCode ⟨first.editions, first.machine.field⟩
        ⟨second.editions, second.machine.field⟩ := ⟨same.editions, fields⟩
    simp only [Session.publish, one, other]
    exact ⟨edition, {same with
      shared := .some edition
      editions := congrArg (· + 1) same.editions}⟩
  · rename_i edition
    simp only [Session.publish, one, other]
    exact ⟨edition, same⟩

theorem SameCode.capture (same : first.SameCode second) :
    first.capture.SameCode second.capture := by
  have switches : (!first.config.recordHistory || first.truncated) =
      (!second.config.recordHistory || second.truncated) := by
    rw [same.config, same.truncated]
  unfold Session.capture
  rw [switches]
  split
  · exact {same with
      atSnapshot := rfl
      latest := by simp}
  · obtain ⟨editions, published⟩ := same.publish
    generalize first.publish = one, second.publish = other at editions published
    obtain ⟨one, first⟩ := one
    obtain ⟨other, second⟩ := other
    have published : first.SameCode second := published
    have snapshots : Snapshot.SameCost ⟨{first.machine with field := one.field}, one.number⟩
        ⟨{second.machine with field := other.field}, other.number⟩ := by
      obtain ⟨_, field, _, machine⟩ := published.machine
      refine ⟨editions.number, ?_, editions.field.footprint⟩
      simp only [machine, Machine.footprint]
    have afforded := published.timeline.affords snapshots
    have appended := published.timeline.append snapshots
    simp only [Timeline.record, afforded]
    by_cases room : second.timeline.affords
        ⟨{second.machine with field := other.field}, other.number⟩ = true
    · simp only [room, if_true]
      exact {published with
        timeline := appended
        position := congrArg (· - 1) appended.length
        atSnapshot := rfl
        latest := by simp [Timeline.append, Timeline.length]}
    · simp only [room]
      exact {published with
        atSnapshot := rfl
        truncated := rfl
        latest := by simp}

theorem SameCode.forgetLater (same : first.SameCode second) :
    first.forgetLater = first ∧ second.forgetLater = second := by
  have alongside : second.atSnapshot = true → second.position + 1 = second.timeline.length := by
    rw [← same.atSnapshot, ← same.position, ← same.timeline.length]
    exact same.latest
  have stays {session : Session σ}
      (latest : session.atSnapshot = true → session.position + 1 = session.timeline.length) :
      session.forgetLater = session := by
    refine if_neg fun middle => ?_
    simp only [Bool.and_eq_true, decide_eq_true_eq] at middle
    have last := latest middle.1
    omega
  exact ⟨stays same.latest, stays alongside⟩

variable [DirectionSource σ]

theorem SameCode.proceed (same : first.SameCode second)
    (blind : first.machine.verdict first.config.stepLimit = none → first.machine.Blind) :
    first.proceed.SameCode second.proceed := by
  have limit : first.config.stepLimit = second.config.stepLimit := by rw [same.config]
  have asks : first.machine.asks first.config.stepLimit =
      second.machine.asks second.config.stepLimit := by
    rw [limit, same.machine.asks]
  have shared : Option.Rel Edition.SameCode
      (if first.machine.lands first.config.stepLimit then none else first.shared)
      (if second.machine.lands second.config.stepLimit then none else second.shared) := by
    rw [limit, same.machine.lands]
    split
    · exact .none
    · exact same.shared
  have stepped {one other : Heading} (answer : one = other) :
      (first.machine.step first.config.stepLimit one).SameCode
        (second.machine.step second.config.stepLimit other) := by
    rw [← limit, ← answer]
    exact same.machine.step blind one
  have heading : first.machine.pointer.heading = second.machine.pointer.heading := by
    obtain ⟨_, field, _, machine⟩ := same.machine
    rw [machine]
  simp only [Session.proceed, asks]
  split
  · exact {same with
      machine := stepped (by rw [same.directions])
      directions := by rw [same.directions]
      shared}
  · exact {same with
      machine := stepped heading
      shared}

theorem SameCode.step (same : first.SameCode second)
    (blind : first.machine.halt = none →
      first.machine.verdict first.config.stepLimit = none → first.machine.Blind) :
    first.step.SameCode second.step := by
  have halt : second.machine.halt = first.machine.halt := by
    obtain ⟨_, field, _, machine⟩ := same.machine
    rw [machine]
  by_cases running : first.machine.halt = none
  · obtain ⟨one, other⟩ := same.forgetLater
    rw [step_of_running running, step_of_running (halt.trans running), one, other]
    exact (same.proceed (blind running)).capture
  · rwa [step_of_halted running, step_of_halted (halt ▸ running)]

theorem SameCode.iterate_step (same : first.SameCode second) {count : ℕ}
    (blind : ∀ cycle ∈ first.cyclesFor count, cycle.1.Blind) :
    (Session.step^[count] first).SameCode (Session.step^[count] second) := by
  induction count generalizing first second with
  | zero => exact same
  | succ count ih =>
    have rest : ∀ cycle ∈ first.step.cyclesFor count, cycle.1.Blind := by
      intro cycle member
      apply blind
      rw [cyclesFor]
      split
      · exact List.mem_cons_of_mem _ member
      · exact member
    rw [Function.iterate_succ_apply, Function.iterate_succ_apply]
    refine ih (same.step fun running undecided => ?_) rest
    apply blind (first.machine, first.step.machine)
    rw [cyclesFor, if_pos (by rw [running, undecided]; rfl)]
    exact List.mem_cons_self

omit [DirectionSource σ] in
theorem new_sameCode {one other : String} (config : Config) (directions : σ)
    (fields : (Playfield.build one).SameCode (Playfield.build other)) :
    (new one config directions).SameCode (new other config directions) := by
  have loaded : (load one config directions).SameCode (load other config directions) :=
    { config := rfl
      machine := ⟨rfl, _, fields, rfl⟩
      directions := rfl
      timeline := ⟨rfl, rfl, rfl, rfl⟩
      position := rfl
      atSnapshot := rfl
      truncated := rfl
      shared := .none
      editions := rfl
      latest := by simp [load] }
  exact loaded.capture

/-- Two programs with the same instructions do and record the same, symbols without a meaning
apart, as long as the first of them reads no symbol as a number. -/
theorem comments_unnoticed (first second : String) (config : Config) (directions : σ)
    (width : (Playfield.build first).width = (Playfield.build second).width)
    (height : (Playfield.build first).height = (Playfield.build second).height)
    (decoded : ∀ x < (Playfield.build first).width, ∀ y < (Playfield.build first).height,
      ((Playfield.build first).get? x y).map (Instruction.decode ∘ Cell.symbol) =
        ((Playfield.build second).get? x y).map (Instruction.decode ∘ Cell.symbol))
    (count : ℕ)
    (unread : ∀ cycle ∈ (Session.new first config directions).cyclesFor count,
      cycle.1.symbol ≠ 'g' ∧ cycle.1.symbol ≠ '\x22') :
    let one := Session.step^[count] (Session.new first config directions)
    let other := Session.step^[count] (Session.new second config directions)
    one.machine = {other.machine with field := one.machine.field} ∧
    one.machine.field.modifiedCells = other.machine.field.modifiedCells ∧
    one.timeline.length = other.timeline.length ∧
    one.timeline.usage = other.timeline.usage ∧
    one.truncated = other.truncated ∧
    (one.machine.field.width = other.machine.field.width ∧
      one.machine.field.height = other.machine.field.height) ∧
    ∀ x y, (one.machine.field.get? x y).map (Instruction.decode ∘ Cell.symbol) =
      (other.machine.field.get? x y).map (Instruction.decode ∘ Cell.symbol) := by
  intro one other
  have same : one.SameCode other :=
    (new_sameCode config directions (Playfield.build_sameCode width height decoded)).iterate_step
      unread
  obtain ⟨_, field, cells, machine⟩ := same.machine
  rw [machine]
  exact ⟨rfl, cells.modifiedCells, same.timeline.length, same.timeline.usage, same.truncated,
    ⟨cells.width, cells.height⟩, cells.decoded⟩

/-- A trampoline is written over different symbols, and leads over different ones. -/
theorem comments_unnoticed_of_put :
    let first := Session.new "57*60p x@" ⟨100, true, 10000⟩ (Script.ofList [])
    let second := Session.new "57*60py @" ⟨100, true, 10000⟩ (Script.ofList [])
    let one := Session.step^[10] first
    let other := Session.step^[10] second
    one.machine.field.lines ≠ other.machine.field.lines ∧
    one.machine.halt = some .terminated ∧
    one.machine.field.modifiedCells = [(6, 0, '#')] ∧
    one.machine = {other.machine with field := one.machine.field} ∧
    one.machine.field.modifiedCells = other.machine.field.modifiedCells ∧
    one.timeline.usage = other.timeline.usage := by
  have differ : (Session.step^[10] (Session.new "57*60p x@" ⟨100, true, 10000⟩
        (Script.ofList []))).machine.field.lines ≠
      (Session.step^[10] (Session.new "57*60py @" ⟨100, true, 10000⟩
        (Script.ofList []))).machine.field.lines := by
    decide +kernel
  have halted : (Session.step^[10] (Session.new "57*60p x@" ⟨100, true, 10000⟩
      (Script.ofList []))).machine.halt = some .terminated := by
    decide +kernel
  have written : (Session.step^[10] (Session.new "57*60p x@" ⟨100, true, 10000⟩
      (Script.ofList []))).machine.field.modifiedCells = [(6, 0, '#')] := by
    decide +kernel
  obtain ⟨rest, modified, _, usage, _⟩ := comments_unnoticed "57*60p x@" "57*60py @"
    ⟨100, true, 10000⟩ (Script.ofList []) (by decide +kernel) (by decide +kernel)
    (by decide +kernel) 10 (by decide +kernel)
  exact ⟨differ, halted, written, rest, modified, usage⟩

end Session

end Befunge
