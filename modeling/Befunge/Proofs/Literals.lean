import Befunge.Proofs.Halting
import Befunge.Proofs.Torus

/-! String literals. From one quote to the next the pointer goes straight on, over the edges
where it meets them, and every symbol on its way is pushed and none carried out. -/
namespace Befunge

namespace Pointer

variable {pointer : Pointer} {width height : ℕ}

/-- Column and row of the cell that lies so many cells ahead, on a playfield whose opposite
edges are joined. -/
def ahead (pointer : Pointer) (width height distance : ℕ) : ℤ × ℤ :=
  ((pointer.x.toInt + distance * pointer.heading.offset.1.toInt) % width,
    (pointer.y.toInt + distance * pointer.heading.offset.2.toInt) % height)

def travel (pointer : Pointer) (width height count : ℕ) : Pointer :=
  (advance · width height)^[count] pointer

theorem travel_succ (pointer : Pointer) (width height count : ℕ) :
    pointer.travel width height (count + 1) =
      (pointer.advance width height).travel width height count := rfl

theorem travel_succ_last (pointer : Pointer) (width height count : ℕ) :
    pointer.travel width height (count + 1) =
      (pointer.travel width height count).advance width height :=
  Function.iterate_succ_apply' ..

theorem travel_eq_walk (pointer : Pointer) (width height count : ℕ) :
    pointer.travel width height count =
      pointer.walk width height (List.replicate count pointer.heading) := by
  induction count generalizing pointer with
  | zero => rfl
  | succ count ih => exact ih (pointer.advance width height)

theorem heading_travel (pointer : Pointer) (width height count : ℕ) :
    (pointer.travel width height count).heading = pointer.heading := by
  induction count generalizing pointer with
  | zero => rfl
  | succ count ih => exact ih (pointer.advance width height)

theorem travel_ahead (within : pointer.Within width height) (narrow : width < 2 ^ 63)
    (low : height < 2 ^ 63) (count : ℕ) :
    let last := pointer.travel width height count
    last.Within width height ∧ last.heading = pointer.heading ∧
      (last.x.toInt, last.y.toInt) = pointer.ahead width height count := by
  have reached := walk_within narrow low within (List.replicate count pointer.heading)
  have walked := toInt_walk narrow low within (List.replicate count pointer.heading)
  rw [← travel_eq_walk] at reached walked
  rw [drift_replicate] at walked
  exact ⟨reached, pointer.heading_travel width height count, Prod.ext walked.1 walked.2⟩

end Pointer

namespace Playfield

variable {field : Playfield} {pointer : Pointer}

theorem contains_iff (field : Playfield) (pointer : Pointer) :
    field.contains pointer.x pointer.y = true ↔ pointer.Within field.width field.height := by
  have column : pointer.x.toNatClampNeg = pointer.x.toInt.toNat := rfl
  have row : pointer.y.toNatClampNeg = pointer.y.toInt.toNat := rfl
  have zero : (0 : Int64).toInt = 0 := rfl
  simp only [contains, Bool.and_eq_true, decide_eq_true_eq, Int64.le_iff_toInt_le, zero, column, row]
  constructor
  · rintro ⟨⟨⟨left, top⟩, right⟩, bottom⟩
    refine ⟨⟨left, ?_⟩, top, ?_⟩ <;> omega
  · rintro ⟨⟨left, right⟩, top, bottom⟩
    refine ⟨⟨⟨left, top⟩, ?_⟩, ?_⟩ <;> omega

theorem isEmpty_of_within (within : pointer.Within field.width field.height) :
    field.isEmpty = false := by
  obtain ⟨⟨left, right⟩, top, bottom⟩ := within
  simp only [isEmpty, Bool.or_eq_false_iff, beq_eq_false_iff_ne]
  omega

theorem symbol_eq_read (within : pointer.Within field.width field.height) :
    (field.get? pointer.x.toInt.toNat pointer.y.toInt.toNat).map Cell.symbol =
      some (field.read pointer.x pointer.y) := by
  have inside := (field.contains_iff pointer).mpr within
  have present : (field.cell? pointer.x pointer.y).isSome := by rw [isSome_cell?, inside]
  obtain ⟨cell, found⟩ := Option.isSome_iff_exists.mp present
  rw [read, found]
  rw [cell?, if_pos inside] at found
  exact congrArg (Option.map Cell.symbol) found

def symbolAhead? (field : Playfield) (pointer : Pointer) (distance : ℕ) : Option Char :=
  let (x, y) := pointer.ahead field.width field.height distance
  (field.get? x.toNat y.toNat).map Cell.symbol

/-- The text stands on the way of the pointer, from its own cell on. -/
def Spells (field : Playfield) (pointer : Pointer) (text : List Char) : Prop :=
  ∀ index (inside : index < text.length),
    let place := pointer.travel field.width field.height index
    field.read place.x place.y = text[index]

theorem spells_of_symbolAhead? {text : List Char} (within : pointer.Within field.width field.height)
    (narrow : field.width < 2 ^ 63) (low : field.height < 2 ^ 63)
    (spelled : ∀ distance < text.length, field.symbolAhead? pointer distance = text[distance]?) :
    field.Spells pointer text := by
  intro index inside place
  obtain ⟨reached, _, ahead⟩ := Pointer.travel_ahead within narrow low index
  have found := spelled index inside
  rw [symbolAhead?, ← ahead] at found
  rw [List.getElem?_eq_getElem inside] at found
  exact Option.some.inj ((symbol_eq_read reached).symm.trans found)

end Playfield

namespace Stack

def pushAll (stack : Stack) (values : List Int64) : Stack := ⟨values.reverse ++ stack.topFirst⟩

@[simp]
theorem toList_pushAll (stack : Stack) (values : List Int64) :
    (stack.pushAll values).toList = stack.toList ++ values := by
  simp [toList, pushAll]

theorem pushAll_push (stack : Stack) (value : Int64) (values : List Int64) :
    (stack.push value).pushAll values = stack.pushAll (value :: values) := by
  simp [pushAll, push]

end Stack

namespace Machine

variable {machine next later : Machine}

theorem cycle_of_literal (literal : machine.isLiteral = true) (answer : Heading) :
    machine.cycle answer =
      {machine with
        pointer := machine.pointer.advance machine.field.width machine.field.height
        stack := machine.stack.push (Text.code machine.symbol)
        steps := machine.steps + 1} := by
  rw [cycle, dispatch, if_pos literal]
  rfl

theorem cycle_of_instruction (plain : machine.isLiteral = false) {instruction : Instruction}
    (decoded : Instruction.decode machine.symbol = instruction) (answer : Heading) :
    machine.cycle answer =
      {(machine.execute answer instruction).advance with
        steps := (machine.execute answer instruction).steps + 1} := by
  rw [cycle, dispatch, plain, decoded]
  rfl

theorem cycle_of_quote (quote : machine.symbol = '\x22') (answer : Heading) :
    machine.cycle answer =
      {machine with
        pointer := machine.pointer.advance machine.field.width machine.field.height
        stringMode := !machine.stringMode
        steps := machine.steps + 1} := by
  have plain : machine.isLiteral = false := by simp [isLiteral, quote]
  exact cycle_of_instruction plain (congrArg Instruction.decode quote) answer

/-- The next cycle neither draws a heading nor stands before a terminator. -/
def Quiet (machine : Machine) : Prop :=
  machine.stringMode = true ∨ machine.symbol ≠ '?' ∧ machine.symbol ≠ '@'

theorem quiet_of_quote (quote : machine.symbol = '\x22') : machine.Quiet := by
  simp [Quiet, quote]

/-- So many quiet cycles lead from one machine to the other. -/
inductive Reaches : ℕ → Machine → Machine → Prop
  | refl (machine : Machine) : Reaches 0 machine machine
  | cycle {count : ℕ} {machine next later : Machine} (quiet : machine.Quiet)
      (cycled : machine.cycle machine.pointer.heading = next) (rest : Reaches count next later) :
      Reaches (count + 1) machine later

theorem Reaches.one (quiet : machine.Quiet)
    (cycled : machine.cycle machine.pointer.heading = next) : Reaches 1 machine next :=
  .cycle quiet cycled (.refl next)

theorem Reaches.trans {first second : ℕ} (begun : Reaches first machine next)
    (continued : Reaches second next later) : Reaches (first + second) machine later := by
  induction begun with
  | refl => rwa [Nat.zero_add]
  | cycle quiet cycled _ ih =>
    rw [Nat.add_right_comm]
    exact .cycle quiet cycled (ih continued)

/-- Quiet cycles leave the source of headings alone. -/
theorem Reaches.drawCycle {σ : Type} [DirectionSource σ] {count : ℕ}
    (reaches : Reaches count machine later) (directions : σ) :
    Machine.drawCycle^[count] (machine, directions) = (later, directions) ∧
      ∀ earlier < count,
        (Machine.drawCycle^[earlier] (machine, directions)).1.atTerminator = false := by
  induction reaches with
  | refl => exact ⟨rfl, by simp⟩
  | @cycle count machine next later quiet cycled _ ih =>
    have calm : (!machine.stringMode && machine.symbol == '?') = false ∧
        machine.atTerminator = false := by
      rcases quiet with mode | ⟨asks, ends⟩
      · simp [mode, atTerminator]
      · simp [asks, ends, atTerminator]
    have first : Machine.drawCycle (machine, directions) = (next, directions) := by
      simp only [Machine.drawCycle, calm.1, cycled, Bool.false_eq_true, if_false]
    refine ⟨?_, ?_⟩
    · rw [Function.iterate_succ_apply, first, ih.1]
    · intro earlier before
      cases earlier with
      | zero => exact calm.2
      | succ earlier =>
        rw [Function.iterate_succ_apply, first]
        exact ih.2 earlier (by omega)

/-- In string mode every symbol up to the next quote is pushed, whatever it stands for. -/
theorem reaches_closing {text : List Char} (machine : Machine) (mode : machine.stringMode = true)
    (spelled : machine.field.Spells machine.pointer (text ++ ['\x22']))
    (unquoted : '\x22' ∉ text) :
    Reaches (text.length + 1) machine
      {machine with
        pointer := machine.pointer.travel machine.field.width machine.field.height (text.length + 1)
        stack := machine.stack.pushAll (text.map Text.code)
        stringMode := false
        steps := machine.steps + (text.length + 1)} := by
  induction text generalizing machine with
  | nil =>
    have closes : machine.symbol = '\x22' := spelled 0 (Nat.zero_lt_succ _)
    refine .one (quiet_of_quote closes) ?_
    rw [cycle_of_quote closes, mode]
    rfl
  | cons symbol text ih =>
    obtain ⟨other, unquoted⟩ := List.ne_and_not_mem_of_not_mem_cons unquoted
    have here : machine.symbol = symbol := spelled 0 (Nat.zero_lt_succ _)
    have literal : machine.isLiteral = true := by simp [isLiteral, mode, here, other.symm]
    have rest := ih {machine with
        pointer := machine.pointer.advance machine.field.width machine.field.height
        stack := machine.stack.push (Text.code machine.symbol)
        steps := machine.steps + 1} mode
      (fun index inside => spelled (index + 1) (Nat.succ_lt_succ inside)) unquoted
    refine .cycle (.inl mode) (cycle_of_literal literal _) ?_
    simp only [here, Stack.pushAll_push, ← Pointer.travel_succ, Nat.add_assoc,
      Nat.add_comm 1] at rest ⊢
    exact rest

theorem reaches_literal {text : List Char} (mode : machine.stringMode = false)
    (spelled : machine.field.Spells machine.pointer ('\x22' :: (text ++ ['\x22'])))
    (unquoted : '\x22' ∉ text) :
    Reaches (text.length + 2) machine
      {machine with
        pointer := machine.pointer.travel machine.field.width machine.field.height (text.length + 2)
        stack := machine.stack.pushAll (text.map Text.code)
        steps := machine.steps + (text.length + 2)} := by
  have opens : machine.symbol = '\x22' := spelled 0 (Nat.zero_lt_succ _)
  have rest := reaches_closing {machine with
      pointer := machine.pointer.advance machine.field.width machine.field.height
      stringMode := !machine.stringMode
      steps := machine.steps + 1} (congrArg not mode)
    (fun index inside => spelled (index + 1) (Nat.succ_lt_succ inside)) unquoted
  refine .cycle (quiet_of_quote opens) (cycle_of_quote opens _) ?_
  simp only [mode, ← Pointer.travel_succ, Nat.add_assoc, Nat.add_comm 1] at rest ⊢
  exact rest

end Machine

namespace Session

variable {σ : Type} [DirectionSource σ] {session : Session σ} {later : Machine} {count : ℕ}

/-- Quiet cycles that the step limit allows are steps. -/
theorem iterate_step_of_reaches (running : session.machine.halt = none)
    (filled : session.machine.field.isEmpty = false)
    (allowed : session.machine.steps + count ≤ session.config.stepLimit)
    (reaches : session.machine.Reaches count later) :
    (step^[count] session).live = (later, session.directions) ∧
      ∀ earlier ≤ count, (step^[earlier] session).machine.halt = none := by
  obtain ⟨cycles, onward⟩ := reaches.drawCycle session.directions
  have going (earlier : ℕ) (before : earlier ≤ count) :
      (step^[earlier] session).live = Machine.drawCycle^[earlier] session.live ∧
        (step^[earlier] session).machine.halt = none :=
    iterate_step_live running filled (by omega) fun index less => onward index (by omega)
  refine ⟨?_, fun earlier before => (going earlier before).2⟩
  exact (going count le_rfl).1.trans cycles

/-- A literal, entered at its opening quote in any heading, pushes the codes of its text one
after another. Nothing else happens until the pointer is past the closing quote, which may be
the opening one met again. -/
theorem literal_pushes_text (session : Session σ) (text : List Char)
    (running : session.machine.halt = none)
    (inside : session.machine.field.contains session.machine.pointer.x session.machine.pointer.y)
    (narrow : session.machine.field.width < 2 ^ 63) (low : session.machine.field.height < 2 ^ 63)
    (mode : session.machine.stringMode = false) (unquoted : '\x22' ∉ text)
    (spelled : ∀ distance < text.length + 2,
      session.machine.field.symbolAhead? session.machine.pointer distance =
        ('\x22' :: (text ++ ['\x22']))[distance]?)
    (allowed : session.machine.steps + text.length + 2 ≤ session.config.stepLimit) :
    let machine := session.machine
    let last := Session.step^[text.length + 2] session
    (∀ earlier ≤ text.length + 2, (Session.step^[earlier] session).machine.halt = none) ∧
    last.machine.stack.toList.map Int64.toInt =
      machine.stack.toList.map Int64.toInt ++ text.map (fun symbol => (symbol.toNat : ℤ)) ∧
    last.machine.stringMode = false ∧
    last.machine.pointer.heading = machine.pointer.heading ∧
    (last.machine.pointer.x.toInt, last.machine.pointer.y.toInt) =
      machine.pointer.ahead machine.field.width machine.field.height (text.length + 2) ∧
    last.machine.steps = machine.steps + text.length + 2 ∧
    last.machine.field = machine.field ∧
    last.machine.output = machine.output ∧
    last.directions = session.directions := by
  intro machine last
  have within := (machine.field.contains_iff machine.pointer).mp inside
  have spelled : machine.field.Spells machine.pointer ('\x22' :: (text ++ ['\x22'])) :=
    Playfield.spells_of_symbolAhead? within narrow low
      fun distance before => spelled distance (by simpa [Nat.lt_succ_iff] using before)
  obtain ⟨live, going⟩ := iterate_step_of_reaches running (Playfield.isEmpty_of_within within)
    (by omega) (Machine.reaches_literal mode spelled unquoted)
  obtain ⟨_, heading, ahead⟩ := Pointer.travel_ahead within narrow low (text.length + 2)
  have reached : last.machine = _ := congrArg Prod.fst live
  rw [reached]
  refine ⟨going, ?_, mode, heading, ahead, ?_, rfl, rfl, congrArg Prod.snd live⟩
  · rw [Stack.toList_pushAll, List.map_append, List.map_map]
    exact congrArg _ (List.map_congr_left fun symbol _ => Text.toInt_code symbol)
  · exact (Nat.add_assoc _ _ _).symm

/-- Leftwards from the corner, round the edge and back to the only quote. -/
theorem literal_pushes_text_of_round_trip :
    let session := (Session.new "\x22@?" ⟨100, true, 10000⟩ (Script.ofList [])).setHeading .left
    let last := Session.step^[4] session
    session.machine.field.contains session.machine.pointer.x session.machine.pointer.y = true ∧
    (∀ distance < 4, session.machine.field.symbolAhead? session.machine.pointer distance =
      ['\x22', '?', '@', '\x22'][distance]?) ∧
    last.machine.halt = none ∧
    last.machine.stack.toList = [63, 64] ∧
    (last.machine.pointer.x.toInt, last.machine.pointer.y.toInt) = (2, 0) := by
  intro session last
  have inside : session.machine.field.contains session.machine.pointer.x
      session.machine.pointer.y = true := by decide +kernel
  have spelled : ∀ distance < 4, session.machine.field.symbolAhead? session.machine.pointer
      distance = ['\x22', '?', '@', '\x22'][distance]? := by decide +kernel
  have running : session.machine.halt = none := by decide +kernel
  have small : session.machine.field.width < 2 ^ 63 ∧ session.machine.field.height < 2 ^ 63 := by
    decide +kernel
  have mode : session.machine.stringMode = false := by decide +kernel
  have allowed : session.machine.steps + 2 + 2 ≤ session.config.stepLimit := by decide +kernel
  have pushed : session.machine.stack.toList.map Int64.toInt ++
      ['?', '@'].map (fun symbol => (symbol.toNat : ℤ)) = [63, 64].map Int64.toInt := by
    decide +kernel
  have beyond : session.machine.pointer.ahead session.machine.field.width
      session.machine.field.height 4 = (2, 0) := by decide +kernel
  -- From here on the session need not be computed any more.
  clear_value session
  obtain ⟨going, stack, _, _, place, _⟩ := literal_pushes_text session ['?', '@'] running inside
    small.1 small.2 mode (by decide) spelled allowed
  have codes := List.map_injective_iff.mpr (fun _ _ => Int64.toInt_inj.mp) (stack.trans pushed)
  exact ⟨inside, spelled, going 4 le_rfl, codes, place.trans beyond⟩

end Session

end Befunge
