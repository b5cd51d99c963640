import Befunge.Proofs.Literals

/-! A program that prints a given text. A literal puts the text on the stack, its first symbol on
top, and a loop of five symbols prints from the top until it reads the zero below the bottom. -/
namespace Befunge

namespace Text

theorem splitBreaks_of_unbroken {text : List Char} (unbroken : '\n' ∉ text) :
    splitBreaks text = ([], text) := by
  induction text with
  | nil => rfl
  | cons symbol text ih =>
    obtain ⟨other, unbroken⟩ := List.ne_and_not_mem_of_not_mem_cons unbroken
    change consSplit symbol (splitBreaks text) = _
    rw [ih unbroken, consSplit, if_neg other.symm]

theorem sourceLines_of_unbroken {text : List Char} (unbroken : '\n' ∉ text) (filled : text ≠ []) :
    sourceLines text = [text] := by
  rw [sourceLines, splitBreaks_of_unbroken unbroken]
  cases text with
  | nil => contradiction
  | cons => rfl

theorem ofCode?_code (symbol : Char) : ofCode? (code symbol) = some symbol := by
  have clamped : (code symbol).toNatClampNeg = symbol.toNat := by
    change (code symbol).toInt.toNat = _
    rw [toInt_code, Int.toNat_natCast]
  have valid : 0 ≤ code symbol ∧ symbol.toNat.isValidChar := by
    refine ⟨?_, symbol.valid⟩
    rw [Int64.le_iff_toInt_le, toInt_code]
    exact Int.natCast_nonneg _
  rw [ofCode?, clamped, if_pos valid, Char.ofNat_toNat]

theorem code_ne_zero {symbol : Char} (visible : symbol ≠ '\x00') : code symbol ≠ 0 := by
  intro zero
  apply visible
  have number := toInt_code symbol
  rw [zero, show (0 : Int64).toInt = 0 from rfl] at number
  rw [← Char.ofNat_toNat symbol, Int.natCast_eq_zero.mp number.symm]

end Text

theorem wrap_ofNat {column next width : ℕ} {offset : Int64} (narrow : width < 2 ^ 63)
    (inside : column < width) (ahead : next < width)
    (short : -1 ≤ offset.toInt ∧ offset.toInt ≤ 1) (moved : (column : ℤ) + offset.toInt = next) :
    wrap (Int64.ofNat column + offset) width = Int64.ofNat next := by
  have here : (Int64.ofNat column).toInt = column := Int64.toInt_ofNat_of_lt (by omega)
  have there : (Int64.ofNat next).toInt = next := Int64.toInt_ofNat_of_lt (by omega)
  apply Int64.toInt_inj.mp
  rw [toInt_wrap narrow ⟨by omega, by omega⟩ short, here, moved, there]
  exact Int.emod_eq_of_lt (by omega) (by omega)

namespace Pointer

/-- A pointer in the first row. -/
def inRow (column : ℕ) (heading : Heading) : Pointer := ⟨.ofNat column, 0, heading⟩

theorem advance_right (column : ℕ) {width : ℕ} (narrow : width < 2 ^ 63) (ahead : column + 1 < width) :
    (inRow column .right).advance width 1 = inRow (column + 1) .right := by
  have moved : wrap (Int64.ofNat column + 1) width = Int64.ofNat (column + 1) :=
    wrap_ofNat narrow (by omega) ahead (by decide) rfl
  simp only [advance, inRow, Heading.offset, moved]
  rfl

theorem advance_left (column : ℕ) {width : ℕ} (narrow : width < 2 ^ 63) (inside : column + 1 < width) :
    (inRow (column + 1) .left).advance width 1 = inRow column .left := by
  have moved : wrap (Int64.ofNat (column + 1) + -1) width = Int64.ofNat column :=
    wrap_ofNat narrow inside (by omega) (by decide) (by simp)
  simp only [advance, inRow, Heading.offset, moved]
  rfl

theorem travel_right {width count : ℕ} (narrow : width < 2 ^ 63) (inside : count < width) :
    start.travel width 1 count = inRow count .right := by
  induction count with
  | zero => rfl
  | succ count ih => rw [travel_succ_last, ih (by omega), advance_right count narrow inside]

end Pointer

namespace Playfield

/-- A playfield with one row, which reads as the given text. -/
structure IsRow (field : Playfield) (text : List Char) : Prop where
  width : field.width = text.length
  height : field.height = 1
  cells : ∀ column, field.get? column 0 = text[column]?.map (Cell.mk · false)

theorem build_isRow {source : String} (unbroken : '\n' ∉ source.toList)
    (filled : source.toList ≠ []) : (build source).IsRow source.toList := by
  let line := source.toList.map (Cell.mk · false)
  have built : build source = .ofLines [line] ⟨' ', false⟩ := by
    simp only [build, Text.sourceLines_of_unbroken unbroken filled, List.map_cons, List.map_nil, line]
  have widest : Raster.widest [line] = source.toList.length := by
    simp [Raster.widest, line]
  rw [built]
  refine ⟨widest, rfl, ?_⟩
  intro column
  rw [Raster.get?_ofLines, widest, List.getElem?_cons_zero, Option.bind_some, List.getElem?_map]
  split
  · rename_i inside
    rw [List.getElem?_eq_getElem inside]
    rfl
  · rename_i outside
    rw [List.getElem?_eq_none (by omega)]
    rfl

theorem IsRow.read {field : Playfield} {text : List Char} (row : field.IsRow text)
    (narrow : text.length < 2 ^ 63) {column : ℕ} {symbol : Char}
    (found : text[column]? = some symbol) : field.read (.ofNat column) 0 = symbol := by
  obtain ⟨inside, _⟩ := List.getElem?_eq_some_iff.mp found
  have here : (Int64.ofNat column).toInt = column := Int64.toInt_ofNat_of_lt (by omega)
  have zero : (0 : Int64).toInt = 0 := rfl
  have within : (Pointer.inRow column .right).Within field.width field.height := by
    rw [row.width, row.height]
    refine ⟨⟨?_, ?_⟩, ?_, ?_⟩ <;> simp only [Pointer.inRow, here, zero] <;> omega
  have read := symbol_eq_read within
  simp only [Pointer.inRow, here, zero, Int.toNat_natCast, Int.toNat_zero, row.cells, found] at read
  exact (Option.some.inj read).symm

end Playfield

namespace Machine

/-- A machine in the first row, outside string mode. -/
def inRow (field : Playfield) (column : ℕ) (heading : Heading) (stack : Stack)
    (output : Transcript) (steps : ℕ) : Machine where
  field
  pointer := .inRow column heading
  stack
  stringMode := false
  output
  steps
  halt := none

section Loop

variable {field : Playfield} {lead : List Char} {heading : Heading} {stack : Stack}
  {output : Transcript} {steps : ℕ}

theorem reaches_of_executed {text : List Char} (row : field.IsRow text)
    (narrow : text.length < 2 ^ 63) {column onto next : ℕ} {toward : Heading} {symbol : Char}
    {left : Stack} {printed : Transcript} (found : text[column]? = some symbol)
    (quiet : symbol ≠ '?' ∧ symbol ≠ '@')
    (executed : (inRow field column heading stack output steps).execute heading
      (.decode symbol) = inRow field onto toward left printed steps)
    (moved : (Pointer.inRow onto toward).advance text.length 1 = .inRow next toward) :
    Reaches 1 (inRow field column heading stack output steps)
      (inRow field next toward left printed (steps + 1)) := by
  have here : (inRow field column heading stack output steps).symbol = symbol :=
    row.read narrow found
  have cycled : (inRow field column heading stack output steps).cycle heading = _ :=
    cycle_of_instruction rfl (congrArg Instruction.decode here) heading
  rw [executed] at cycled
  refine .one (.inr (here ▸ quiet)) (cycled.trans ?_)
  simp only [advance, inRow, row.width, row.height, moved]

theorem advance_inRow {text : List Char} (row : field.IsRow text) {column next : ℕ}
    (moved : (Pointer.inRow column heading).advance text.length 1 = .inRow next heading) :
    (inRow field column heading stack output steps).advance =
      inRow field next heading stack output steps := by
  simp only [advance, inRow, row.width, row.height, moved]

/-- Prints from the top of the stack, as long as it does not find a zero. -/
def loop : List Char := ['>', ':', '#', ',', '_', '@']

variable (row : field.IsRow (lead ++ loop)) (narrow : (lead ++ loop).length < 2 ^ 63)

theorem getElem?_loop (lead : List Char) (index : ℕ) :
    (lead ++ loop)[lead.length + index]? = loop[index]? := by
  rw [List.getElem?_append_right (Nat.le_add_right ..), Nat.add_sub_cancel_left]

include row narrow

theorem reaches_test : Reaches 3 (inRow field lead.length heading stack output steps)
    (inRow field (lead.length + 4) .right stack.duplicate output (steps + 3)) := by
  have length : (lead ++ loop).length = lead.length + 6 := by simp [loop]
  have right (index : ℕ) (inside : index < 5) :=
    Pointer.advance_right (lead.length + index) narrow (by omega)
  have turn : Reaches 1 (inRow field lead.length heading stack output steps)
      (inRow field (lead.length + 1) .right stack output (steps + 1)) :=
    reaches_of_executed row narrow (getElem?_loop lead 0) (by decide) rfl (right 0 (by decide))
  have copy : Reaches 1 (inRow field (lead.length + 1) .right stack output (steps + 1))
      (inRow field (lead.length + 2) .right stack.duplicate output (steps + 2)) :=
    reaches_of_executed row narrow (getElem?_loop lead 1) (by decide) rfl (right 1 (by decide))
  have jump : Reaches 1 (inRow field (lead.length + 2) .right stack.duplicate output (steps + 2))
      (inRow field (lead.length + 4) .right stack.duplicate output (steps + 3)) :=
    reaches_of_executed row narrow (getElem?_loop lead 2) (by decide)
      (advance_inRow row (right 2 (by decide))) (right 3 (by decide))
  exact (turn.trans copy).trans jump

theorem reaches_round {symbol : Char} (visible : symbol ≠ '\x00') :
    Reaches 6
      (inRow field lead.length heading (stack.push (Text.code symbol)) output steps)
      (inRow field lead.length .left stack (output.printCharacter symbol) (steps + 6)) := by
  have length : (lead ++ loop).length = lead.length + 6 := by simp [loop]
  have left (index : ℕ) (inside : index < 5) :=
    Pointer.advance_left (lead.length + index) narrow (by omega)
  let filled := stack.push (Text.code symbol)
  have choose : (inRow field (lead.length + 4) .right filled.duplicate output (steps + 3)).execute
      .right (.decode '_') = inRow field (lead.length + 4) .left filled output (steps + 3) := by
    simp [filled, Instruction.decode, execute, inRow, Stack.duplicate, Stack.pop, turn,
      Pointer.turn, Pointer.inRow, Text.code_ne_zero visible]
  have branch : Reaches 1
      (inRow field (lead.length + 4) .right filled.duplicate output (steps + 3))
      (inRow field (lead.length + 3) .left filled output (steps + 4)) :=
    reaches_of_executed row narrow (getElem?_loop lead 4) (by decide) choose (left 3 (by decide))
  have take : (inRow field (lead.length + 3) .left filled output (steps + 4)).execute .left
      (.decode ',') =
        inRow field (lead.length + 3) .left stack (output.printCharacter symbol) (steps + 4) := by
    simp [filled, Instruction.decode, execute, inRow, Stack.pop, Text.ofCode?_code]
  have print : Reaches 1 (inRow field (lead.length + 3) .left filled output (steps + 4))
      (inRow field (lead.length + 2) .left stack (output.printCharacter symbol) (steps + 5)) :=
    reaches_of_executed row narrow (getElem?_loop lead 3) (by decide) take (left 2 (by decide))
  have back : Reaches 1
      (inRow field (lead.length + 2) .left stack (output.printCharacter symbol) (steps + 5))
      (inRow field lead.length .left stack (output.printCharacter symbol) (steps + 6)) :=
    reaches_of_executed row narrow (getElem?_loop lead 2) (by decide)
      (advance_inRow row (left 1 (by decide))) (left 0 (by decide))
  exact (((reaches_test row narrow).trans branch).trans print).trans back

theorem reaches_terminator :
    Reaches 4 (inRow field lead.length heading .empty output steps)
      (inRow field (lead.length + 5) .right .empty output (steps + 4)) := by
  have length : (lead ++ loop).length = lead.length + 6 := by simp [loop]
  have branch : Reaches 1
      (inRow field (lead.length + 4) .right Stack.empty.duplicate output (steps + 3))
      (inRow field (lead.length + 5) .right .empty output (steps + 4)) :=
    reaches_of_executed row narrow (getElem?_loop lead 4) (by decide) rfl
      (Pointer.advance_right _ narrow (by omega))
  exact (reaches_test row narrow).trans branch

theorem reaches_printed {text : List Char} (visible : '\x00' ∉ text) :
    Reaches (6 * text.length + 4)
      (inRow field lead.length heading ⟨text.map Text.code⟩ output steps)
      (inRow field (lead.length + 5) .right .empty ⟨output.text ++ String.ofList text⟩
        (steps + (6 * text.length + 4))) := by
  induction text generalizing heading output steps with
  | nil => simpa [Stack.empty] using reaches_terminator row narrow
  | cons symbol text ih =>
    obtain ⟨other, visible⟩ := List.ne_and_not_mem_of_not_mem_cons visible
    have first : Reaches 6
        (inRow field lead.length heading ⟨(symbol :: text).map Text.code⟩ output steps)
        (inRow field lead.length .left ⟨text.map Text.code⟩ (output.printCharacter symbol)
          (steps + 6)) :=
      reaches_round row narrow other.symm
    have rest := first.trans (ih visible)
    have printed : (output.printCharacter symbol).text ++ String.ofList text =
        output.text ++ String.ofList (symbol :: text) := by
      rw [← String.toList_inj]
      simp [Transcript.printCharacter]
    have counted : 6 + (6 * text.length + 4) = 6 * (symbol :: text).length + 4 := by
      rw [List.length_cons]
      omega
    rw [printed, Nat.add_assoc, counted] at rest
    exact rest

end Loop

end Machine

/-- The program that prints a text. -/
def printer (text : String) : String :=
  "\x22" ++ String.ofList text.toList.reverse ++ "\x22>:#,_@"

section Printer

variable {text : String}

def literal (text : String) : List Char := '\x22' :: (text.toList.reverse ++ ['\x22'])

theorem toList_printer (text : String) : (printer text).toList = literal text ++ Machine.loop := by
  simp [printer, literal, Machine.loop]

theorem length_literal (text : String) : (literal text).length = text.length + 2 := by
  simp [literal, ← String.length_toList]

theorem build_printer (unbroken : '\n' ∉ text.toList) :
    (Playfield.build (printer text)).IsRow (literal text ++ Machine.loop) := by
  rw [← toList_printer]
  apply Playfield.build_isRow
  · simpa [toList_printer, literal, Machine.loop] using unbroken
  · simp [toList_printer, literal]

theorem spells_literal (unbroken : '\n' ∉ text.toList) (narrow : text.length + 8 < 2 ^ 63) :
    (Playfield.build (printer text)).Spells .start (literal text) := by
  have row := build_printer unbroken
  have length : (literal text ++ Machine.loop).length = text.length + 8 := by
    simp [length_literal, Machine.loop]
  intro index inside place
  have here : place = .inRow index .right := by
    change Pointer.start.travel _ _ index = _
    rw [row.width, row.height]
    apply Pointer.travel_right
    all_goals rw [length_literal] at inside
    all_goals omega
  rw [here]
  apply row.read (by omega)
  rw [List.getElem?_append_left inside, List.getElem?_eq_getElem inside]

theorem reaches_loaded (unquoted : '\x22' ∉ text.toList) (unbroken : '\n' ∉ text.toList)
    (narrow : text.length + 8 < 2 ^ 63) :
    Machine.Reaches (text.length + 2) (.load (printer text))
      (.inRow (.build (printer text)) (literal text).length .right ⟨text.toList.map Text.code⟩ .empty
        (text.length + 2)) := by
  have row := build_printer unbroken
  have length : (literal text ++ Machine.loop).length = text.length + 8 := by
    simp [length_literal, Machine.loop]
  have pushed : Stack.empty.pushAll (text.toList.reverse.map Text.code) =
      ⟨text.toList.map Text.code⟩ := by
    simp [Stack.pushAll, Stack.empty]
  have place : Pointer.start.travel (Playfield.build (printer text)).width
      (Playfield.build (printer text)).height (text.length + 2) =
        .inRow (literal text).length .right := by
    rw [row.width, row.height, length_literal]
    exact Pointer.travel_right (by omega) (by omega)
  have reached : (Machine.load (printer text)).Reaches _ _ :=
    Machine.reaches_literal rfl (spells_literal unbroken narrow) (by simpa using unquoted)
  simp only [List.length_reverse, String.length_toList, Machine.load, place, pushed,
    Nat.zero_add] at reached
  exact reached

/-- One cycle for each symbol and the two quotes, then six for each symbol and four more. -/
theorem reaches_end (unquoted : '\x22' ∉ text.toList) (unbroken : '\n' ∉ text.toList)
    (visible : '\x00' ∉ text.toList) (narrow : text.length + 8 < 2 ^ 63) :
    Machine.Reaches (7 * text.length + 6) (.load (printer text))
      (.inRow (.build (printer text)) ((literal text).length + 5) .right .empty ⟨text⟩
        (7 * text.length + 6)) := by
  have small : (literal text ++ Machine.loop).length < 2 ^ 63 := by
    simpa [length_literal, Machine.loop] using narrow
  have reaches := (reaches_loaded unquoted unbroken narrow).trans
    (Machine.reaches_printed (build_printer unbroken) small visible)
  have counted : text.length + 2 + (6 * text.toList.length + 4) = 7 * text.length + 6 := by
    rw [String.length_toList]
    omega
  have printed : Transcript.empty.text ++ String.ofList text.toList = text := by
    simp [Transcript.empty]
  rwa [counted, printed] at reaches

theorem atTerminator_end (unbroken : '\n' ∉ text.toList) (narrow : text.length + 8 < 2 ^ 63)
    (stack : Stack) (output : Transcript) (steps : ℕ) :
    (Machine.inRow (.build (printer text)) ((literal text).length + 5) .right stack output
      steps).atTerminator = true := by
  have small : (literal text ++ Machine.loop).length < 2 ^ 63 := by
    simpa [length_literal, Machine.loop] using narrow
  have here := (build_printer unbroken).read small (Machine.getElem?_loop (literal text) 5)
  simp only [Machine.atTerminator, Machine.symbol, Machine.inRow, Pointer.inRow, here]
  rfl

end Printer

namespace Session

variable {σ : Type} [DirectionSource σ]

theorem run_of_reaches {session : Session σ} {count : ℕ} {later : Machine}
    (running : session.machine.halt = none) (filled : session.machine.field.isEmpty = false)
    (allowed : session.machine.steps + count ≤ session.config.stepLimit)
    (reaches : session.machine.Reaches count later) (ends : later.atTerminator = true) :
    session.run.machine = {later with halt := some .terminated} := by
  obtain ⟨cycles, onward⟩ := reaches.drawCycle session.directions
  have cells : later.field.isEmpty = false := by
    have kept := Machine.iterate_drawCycle_isEmpty session.live count
    rw [live, cycles] at kept
    exact kept.trans filled
  have stopped : session.Stopped count .terminated := by
    apply stopped_of_onward running filled allowed onward
    rw [live, cycles]
    exact Machine.verdict_of_terminator _ cells ends
  rw [stopped.machine, live, cycles]

/-- The program prints its text, symbol by symbol, and then terminates with nothing left. -/
theorem printer_prints (text : String) (config : Config) (directions : σ)
    (unquoted : '\x22' ∉ text.toList) (unbroken : '\n' ∉ text.toList)
    (visible : '\x00' ∉ text.toList) (narrow : text.length + 8 < 2 ^ 63)
    (allowed : 7 * text.length + 6 ≤ config.stepLimit) :
    let source := printer text
    let last := (Session.new source config directions).run
    last.machine.output.text = text ∧
    last.machine.halt = some .terminated ∧
    last.machine.steps = 7 * text.length + 6 ∧
    last.machine.stack = .empty ∧
    last.machine.field = .build source ∧
    last.machine.field.modifiedCells = [] := by
  intro source last
  have machine : (Session.new source config directions).machine = .load source := new_machine ..
  have limit : (Session.new source config directions).config = config :=
    (load source config directions).capture_outside.1
  have filled : (Playfield.build source).isEmpty = false := by
    have row := build_printer unbroken
    simp [Playfield.isEmpty, source, row.width, row.height, literal]
  have reaches : (Session.new source config directions).machine.Reaches (7 * text.length + 6) _ :=
    machine ▸ reaches_end unquoted unbroken visible narrow
  have ran := run_of_reaches (new_running source config directions) (by rwa [machine])
    (by simpa [machine, limit, Machine.load] using allowed) reaches
    (atTerminator_end unbroken narrow _ _ _)
  rw [ran]
  exact ⟨rfl, rfl, rfl, rfl, rfl, Playfield.modifiedCells_build source⟩

/-- A text with a terminator, a carriage return and symbols outside ASCII, and no step to spare. -/
theorem printer_prints_of_program :
    let last := (Session.new (printer "@,é→\r") ⟨41, true, 100⟩ (Script.ofList [])).run
    last.machine.output.text = "@,é→\r" ∧
    last.machine.halt = some .terminated ∧
    last.machine.steps = 41 ∧
    last.machine.stack = .empty ∧
    last.machine.field.modifiedCells = [] := by
  have length : "@,é→\r".length = 5 := by decide +kernel
  have symbols : '\x22' ∉ "@,é→\r".toList ∧ '\n' ∉ "@,é→\r".toList ∧
      '\x00' ∉ "@,é→\r".toList := by
    decide +kernel
  obtain ⟨output, halt, steps, stack, _, cells⟩ :=
    printer_prints "@,é→\r" ⟨41, true, 100⟩ (Script.ofList []) symbols.1 symbols.2.1 symbols.2.2
      (by rw [length]; decide) (by rw [length])
  rw [length] at steps
  exact ⟨output, halt, steps, stack, cells⟩

end Session

end Befunge
