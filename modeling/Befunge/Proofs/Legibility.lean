import Befunge.Proofs.Browsing
import Befunge.Proofs.Drawing

/-! Control characters on the screen. All panes are free of them. The status bar shows the symbol
under the pointer as it is, and that cell is the only one where a control character can stand. -/
namespace Befunge

namespace Text

/-- Free of control characters. -/
def Legible (text : List Char) : Prop := ∀ symbol ∈ text, isControl symbol = false

/-- Legible, and one column for each symbol. -/
def Plain (text : List Char) : Prop :=
  ∀ symbol ∈ text, isControl symbol = false ∧ columns symbol = 1

instance : DecidablePred Legible := fun text => List.decidableBAll _ text

instance : DecidablePred Plain := fun text => List.decidableBAll _ text

theorem Plain.legible {text : List Char} (plain : Plain text) : Legible text :=
  fun symbol member => (plain symbol member).1

theorem Plain.narrow {text : List Char} (plain : Plain text) {symbol : Char}
    (member : symbol ∈ text) : symbol ≠ '\n' ∧ columns symbol = 1 := by
  refine ⟨?_, (plain symbol member).2⟩
  rintro rfl
  exact absurd (plain _ member).1 (by decide)

theorem Plain.totalColumns {text : List Char} (plain : Plain text) :
    totalColumns text = text.length := by
  induction text with
  | nil => rfl
  | cons symbol rest ih =>
    obtain ⟨first, others⟩ := List.forall_mem_cons.mp plain
    rw [Text.totalColumns, first.2, ih others, List.length_cons, Nat.add_comm]

@[simp]
theorem legible_cons {symbol : Char} {text : List Char} :
    Legible (symbol :: text) ↔ isControl symbol = false ∧ Legible text :=
  List.forall_mem_cons

@[simp]
theorem legible_append {first second : List Char} :
    Legible (first ++ second) ↔ Legible first ∧ Legible second :=
  List.forall_mem_append

theorem plain_append {first second : List Char} :
    Plain (first ++ second) ↔ Plain first ∧ Plain second :=
  List.forall_mem_append

theorem Legible.concat {first second : String} (before : Legible first.toList)
    (after : Legible second.toList) : Legible (first ++ second).toList := by
  rw [String.toList_append]
  exact legible_append.mpr ⟨before, after⟩

theorem Plain.concat {first second : String} (before : Plain first.toList)
    (after : Plain second.toList) : Plain (first ++ second).toList := by
  rw [String.toList_append]
  exact plain_append.mpr ⟨before, after⟩

theorem plain_digitChar : ∀ digit < 16, Plain [digit.digitChar] := by decide

theorem plain_toDigits {base : Nat} (positional : 1 < base) (small : base ≤ 16) (number : Nat) :
    Plain (base.toDigits number) := by
  induction number using Nat.strong_induction_on with
  | h number ih =>
    rw [Nat.toDigits_eq_if positional]
    split_ifs with single
    · exact plain_digitChar number (by omega)
    · have less : number / base < number := Nat.div_lt_self (by omega) positional
      have digit : number % base < base := Nat.mod_lt _ (by omega)
      exact plain_append.mpr ⟨ih _ less, plain_digitChar _ (by omega)⟩

theorem plain_natural (number : Nat) : Plain (toString number).toList := by
  rw [Nat.toString_eq_repr, Nat.toList_repr]
  exact plain_toDigits (by decide) (by decide) number

theorem plain_integer (number : Int) : Plain (toString number).toList := by
  cases number with
  | ofNat number => exact plain_natural number
  | negSucc number =>
    rw [Int.toString_eq_repr, Int.repr, String.toList_append]
    exact plain_append.mpr ⟨by decide, plain_natural _⟩

theorem legible_natural (number : Nat) : Legible (toString number).toList :=
  (plain_natural number).legible

theorem legible_integer (number : Int) : Legible (toString number).toList :=
  (plain_integer number).legible

theorem legible_digits (number : Nat) : Legible (Nat.toDigits 10 number) :=
  (plain_toDigits (by decide) (by decide) number).legible

theorem legible_leftpad {text : List Char} (legible : Legible text) (length : Nat) :
    Legible (text.leftpad length ' ') := by
  intro symbol member
  obtain padding | given := List.mem_append.mp member
  · rw [List.eq_of_mem_replicate padding]
    rfl
  · exact legible symbol given

theorem plain_escape (symbol : Char) : Plain (escape symbol) := by
  unfold escape
  split_ifs
  · decide
  · decide
  · decide
  · have digits := plain_toDigits (by decide : 1 < 16) le_rfl symbol.toNat
    exact plain_append.mpr ⟨plain_append.mpr ⟨by decide, digits⟩, by decide⟩

theorem legible_escapeControls (text : List Char) : Legible (escapeControls text) := by
  intro symbol member
  obtain ⟨given, _, shown⟩ := List.mem_flatMap.mp member
  split_ifs at shown with control
  · exact (plain_escape given).legible symbol shown
  · rw [List.mem_singleton.mp shown]
    simpa using control

theorem escapeControls_of_legible {text : List Char} (legible : Legible text) :
    escapeControls text = text := by
  induction text with
  | nil => rfl
  | cons symbol text ih =>
    obtain ⟨visible, legible⟩ := legible_cons.mp legible
    change (if isControl symbol then escape symbol else [symbol]) ++ escapeControls text = _
    rw [visible, ih legible]
    rfl

end Text

open Text

def Line.Legible (line : Line) : Prop := ∀ span ∈ line, Text.Legible span.text

instance : DecidablePred Line.Legible := fun line =>
  inferInstanceAs (Decidable (∀ span ∈ line, Text.Legible span.text))

@[simp]
theorem Line.legible_cons {span : Span} {line : Line} :
    Line.Legible (span :: line) ↔ Text.Legible span.text ∧ Line.Legible line :=
  List.forall_mem_cons

@[simp]
theorem Line.legible_append {first second : Line} :
    Line.Legible (first ++ second) ↔ Line.Legible first ∧ Line.Legible second :=
  List.forall_mem_append

namespace Screen

variable {screen : Screen} {area : Area}

/-- Admits all but control characters, everywhere. -/
def clean (_ _ : Nat) (symbol : Char) : Prop := isControl symbol = false

theorem clean_frame {frame : Frame} (title : Legible frame.title) :
    Drawn clean screen (frame.draw screen area) := by
  refine drawn_frame fun symbol member _ _ _ => ?_
  obtain side | titled := List.mem_append.mp member
  · exact (by decide : Legible sides) symbol side
  · exact title symbol titled

theorem clean_paragraph {alignment : Alignment} {lines : List Line}
    (legible : ∀ line ∈ lines, Line.Legible line) :
    Drawn clean screen (screen.drawParagraph area alignment lines) :=
  drawn_drawParagraph fun line inLines span inLine symbol member _ _ _ _ =>
    legible line inLines span inLine symbol member

theorem clean_items {items : List (Line × Style)} (legible : ∀ item ∈ items, Line.Legible item.1) :
    Drawn clean screen (screen.drawItems area items) :=
  drawn_drawItems (fun _ _ _ => rfl) fun item inItems span inLine symbol member _ _ _ =>
    legible item inItems span inLine symbol member

theorem clean_listing {listing : Listing} (title : Legible listing.frame.title)
    (legible : ∀ row ∈ listing.rows, Line.Legible row.1) :
    Drawn clean screen (listing.draw area screen) :=
  (clean_frame title).trans (clean_items legible)

end Screen

namespace Viewer

open Screen

section Panes

variable {screen : Screen}

theorem FieldView.legible_lines (view : FieldView) (scroll : FieldScroll) (columns rows : Nat) :
    ∀ line ∈ view.lines scroll columns rows, Line.Legible line := by
  intro line member
  obtain ⟨⟨row, y⟩, _, rfl⟩ := List.mem_map.mp member
  refine Line.legible_cons.mpr ⟨?_, fun span inRow => ?_⟩
  · exact legible_append.mpr ⟨legible_leftpad (legible_digits y) 4, by decide⟩
  · obtain ⟨⟨cell, x⟩, _, rfl⟩ := List.mem_map.mp inRow
    cases control : isControl cell.symbol <;>
      simp [FieldView.cellSpan, FieldView.shown, Text.Legible, control]
    decide

theorem FieldView.drawn (view : FieldView) (isFocused : Bool) (area : Area) (scroll : FieldScroll) :
    Drawn clean screen (view.draw isFocused area scroll screen).1 := by
  have title : Legible (view.frame isFocused).title := by
    refine .concat (.concat (.concat (.concat ?_ (legible_natural _)) ?_) (legible_natural _))
      ?_ <;> decide
  rw [FieldView.draw]
  split_ifs
  · exact ((drawn_fill _ _).trans (clean_frame title)).trans (clean_paragraph (by decide))
  · exact (clean_frame title).trans (clean_paragraph (view.legible_lines _ _ _))

theorem OutputPane.drawn (output : Transcript) (isFocused : Bool) (area : Area) (offset : Nat) :
    Drawn clean screen (OutputPane.draw output isFocused area offset screen).1 := by
  have title : Legible (OutputPane.frame isFocused).title := by decide +revert
  rw [OutputPane.draw, OutputPane.listing?]
  cases output.lines with
  | nil => exact ((drawn_fill _ _).trans (clean_frame title)).trans (clean_paragraph (by decide))
  | cons first rest =>
    refine clean_listing title fun row inPage => ?_
    obtain ⟨line, _, rfl⟩ := List.mem_map.mp inPage
    exact Line.legible_cons.mpr ⟨legible_escapeControls line, by decide⟩

theorem StackPane.legible_hint {value : Int64} {hint : List Char}
    (hinted : StackPane.hint? value = some hint) : Legible hint := by
  obtain ⟨symbol, _, quoted⟩ := Option.bind_eq_some_iff.mp hinted
  split_ifs at quoted with visible
  obtain rfl := Option.some.inj quoted
  have shown : isControl symbol = false := by
    obtain rfl | printable := visible
    · rfl
    · simp only [Bool.and_eq_true, Bool.not_eq_true'] at printable
      exact printable.1
  simp only [legible_cons, shown, true_and]
  decide

theorem StackPane.legible_valueLine (depth index : Nat) (value : Int64) :
    (StackPane.valueLine depth index value).Legible := by
  have marker : Legible (if index + 1 == depth then "▸ " else "  ").toList := by
    split <;> decide
  have label : Legible (['['] ++
      (Nat.toDigits 10 index).leftpad (Nat.toDigits 10 depth).length ' ' ++ [']', ' ']) := by
    simp only [legible_append, legible_leftpad (legible_digits index), and_true]
    decide
  refine Line.legible_append.mpr ⟨?_, ?_⟩
  · simp only [Line.legible_cons, Span.of, marker, label, legible_integer, true_and]
    decide
  · split
    next hint hinted =>
      simp only [Line.legible_cons, StackPane.legible_hint hinted, true_and]
      decide
    next => decide

theorem StackPane.drawn (stack : Stack) (isFocused : Bool) (area : Area) (scroll : StackScroll) :
    Drawn clean screen (StackPane.draw stack isFocused area scroll screen).1 := by
  have title : Legible (StackPane.frame stack isFocused).title := by
    refine .concat (.concat ?_ (legible_natural _)) ?_ <;> decide
  have listed : ∀ item ∈ StackPane.items stack, item.1.Legible := by
    unfold StackPane.items
    split_ifs
    · decide
    · intro item member
      obtain ⟨_, _, rfl⟩ := List.mem_map.mp member
      exact StackPane.legible_valueLine _ _ _
  refine clean_listing title fun row inPage => listed row ?_
  exact List.mem_of_mem_drop (List.mem_of_mem_take inPage)

end Panes

@[simp]
theorem Span.symbols_glyphs (span : Span) : span.glyphs.map Glyph.symbol = span.text := by
  simp [Span.glyphs, Function.comp_def]

namespace Status

def opening (status : Status) : String :=
  let x := status.pointer.x.toInt
  let y := status.pointer.y.toInt
  let arrow := status.pointer.heading.arrow
  let heading := status.pointer.heading.name
  s!" ({x},{y}) {arrow} {heading} '"

/-- What stands in the bar before the symbol under the pointer. -/
def lead (status : Status) : List Char := status.stepText.toList ++ status.opening.toList

def trail (status : Status) : List Char :=
  s!"' {status.instruction} ".toList ++ " | ".toList ++ s!" {status.message} ".toList

theorem toList_pointerText (status : Status) : status.pointerText.toList =
    status.opening.toList ++ status.symbol :: s!"' {status.instruction} ".toList := by
  have parts : status.pointerText =
      status.opening ++ String.singleton status.symbol ++ "' " ++ status.instruction ++ " " := rfl
  have closing : s!"' {status.instruction} " = "' " ++ status.instruction ++ " " := rfl
  simp only [parts, closing, String.toList_append, String.toList_singleton, List.append_assoc,
    List.cons_append, List.nil_append]

theorem left_symbols (status : Status) : (status.left.flatMap Span.glyphs).map Glyph.symbol =
    status.lead ++ status.symbol :: status.trail := by
  simp only [left, lead, trail, Span.of, List.flatMap_cons, List.flatMap_nil, List.map_append,
    Span.symbols_glyphs, toList_pointerText, List.append_assoc, List.cons_append, List.append_nil]

theorem left_glyphs (status : Status) : ∃ before glyph after,
    status.left.flatMap Span.glyphs = before ++ glyph :: after ∧
      before.map Glyph.symbol = status.lead ∧ glyph.symbol = status.symbol ∧
      after.map Glyph.symbol = status.trail := by
  obtain ⟨before, rest, glyphs, lead, symbols⟩ := List.map_eq_append_iff.mp status.left_symbols
  obtain ⟨glyph, after, rfl, symbol, trail⟩ := List.map_eq_cons_iff.mp symbols
  exact ⟨before, glyph, after, glyphs, lead, symbol, trail⟩

theorem plain_lead (status : Status) : Plain status.lead := by
  have mark : Plain (toString (if status.truncated then "+" else "")).toList := by
    split <;> decide
  have arrow : ∀ heading : Heading, Plain (toString heading.arrow).toList := by
    intro heading
    cases heading <;> decide
  have name : ∀ heading : Heading, Plain (toString heading.name).toList := by
    intro heading
    cases heading <;> decide
  refine plain_append.mpr ⟨?_, ?_⟩
  · refine .concat (.concat (.concat (.concat (.concat ?_ (plain_natural _)) ?_) (plain_natural _))
      mark) ?_ <;> decide
  · refine .concat (.concat (.concat (.concat (.concat (.concat (.concat (.concat ?_
      (plain_integer _)) ?_) (plain_integer _)) ?_) (arrow _)) ?_) (name _)) ?_ <;> decide

theorem legible_trail {status : Status} (message : Legible status.message.toList) :
    Legible status.trail := by
  have mnemonic : ∀ instruction : Instruction, Legible instruction.mnemonic.toList := by
    intro instruction
    cases instruction with
    | compute operator => cases operator <;> decide
    | digit => exact (by decide : Legible "push digit".toList)
    | go => exact (by decide : Legible "go".toList)
    | _ => decide
  have instruction : Legible (toString status.instruction).toList := by
    unfold instruction
    split
    · decide
    · exact mnemonic _
  have message : Legible (toString status.message).toList := message
  refine legible_append.mpr ⟨legible_append.mpr ⟨.concat (.concat ?_ instruction) ?_, ?_⟩,
    .concat (.concat ?_ message) ?_⟩ <;> decide

theorem legible_right (status : Status) : status.right.Legible := by
  have halt : ∀ halt : Halt, Legible s!" END: {halt.message} ".toList := by
    intro halt
    cases halt <;> decide
  have mode : status.modeBadge.Legible := by
    unfold modeBadge
    split <;> decide
  have state : status.stateBadge.Legible := by
    unfold stateBadge
    split
    · decide
    · split
      next reason _ =>
        simp only [badge, Line.legible_cons, Span.of, halt reason, true_and]
        decide
      next => split <;> decide
  simp only [right, Line.legible_append, mode, state, and_true]
  decide

/-- Where a control character can stand: it is the symbol under the pointer, in the left half of
the last row. -/
def marks (status : Status) (width height x y : Nat) (symbol : Char) : Prop :=
  isControl symbol = true → symbol = status.symbol ∧ symbol ≠ '\n' ∧
    x = status.lead.length ∧ x < (width + 1) / 2 ∧ y + 1 = height

variable {status : Status} {screen : Screen}

theorem marks_of_clean {width height x y : Nat} {symbol : Char}
    (legible : isControl symbol = false) : status.marks width height x y symbol := by
  intro control
  rw [legible] at control
  cases control

theorem columns_of_control {symbol : Char} (control : isControl symbol = true) :
    columns symbol = 1 := by
  simp only [isControl, Bool.or_eq_true, Bool.and_eq_true, decide_eq_true_eq] at control
  exact if_neg (by omega)

/-- As much of the bar fits as there is room after its plain lead. -/
theorem fitting_left (status : Status) {half : Nat} (wide : 0 < half) :
    ∃ (before : List Glyph) (glyph : Glyph) (after : List Glyph),
      fitting half half (status.left.flatMap Span.glyphs) =
        before.take half ++ fitting half (half - status.lead.length) (glyph :: after) ∧
      before.map Glyph.symbol = status.lead ∧ glyph.symbol = status.symbol ∧
      after.map Glyph.symbol = status.trail := by
  obtain ⟨before, glyph, after, glyphs, lead, symbol, trail⟩ := status.left_glyphs
  refine ⟨before, glyph, after, ?_, lead, symbol, trail⟩
  have narrow : ∀ glyph ∈ before, glyph.symbol ≠ '\n' ∧ columns glyph.symbol = 1 :=
    fun glyph member => status.plain_lead.narrow (lead ▸ List.mem_map_of_mem member)
  rw [glyphs, fitting_append wide narrow, ← lead, List.length_map]

/-- With room for it, a control character comes right after the lead. -/
theorem drawLine_left (control : isControl status.symbol = true) (visible : status.symbol ≠ '\n')
    {half : Nat} (room : status.lead.length < half) (screen : Screen) (row : Nat) :
    ∃ (before : List Glyph) (glyph : Glyph) (after : List Glyph),
      screen.drawLine 0 row half .left status.left =
        ((screen.drawGlyphs 0 row before).draw status.lead.length row glyph).drawGlyphs
          (status.lead.length + 1) row after ∧
      before.map Glyph.symbol = status.lead ∧ glyph.symbol = status.symbol ∧
      ∀ glyph ∈ after, glyph.symbol ∈ status.trail := by
  obtain ⟨before, glyph, after, glyphs, lead, symbol, trail⟩ :=
    status.fitting_left (Nat.zero_lt_of_lt room)
  have length : before.length = status.lead.length := by rw [← lead, List.length_map]
  have narrow : columns glyph.symbol = 1 := by rw [symbol, columns_of_control control]
  have next : fitting half (half - status.lead.length) (glyph :: after) =
      glyph :: fitting half (half - status.lead.length - 1) after := by
    rw [fitting, narrow, symbol, if_neg (by simp [visible]; omega), if_neg (by omega)]
  refine ⟨before, glyph, fitting half (half - status.lead.length - 1) after, ?_, lead, symbol, ?_⟩
  · rw [drawLine, glyphs, next, List.take_of_length_le (by omega), drawGlyphs_append, lead,
      status.plain_lead.totalColumns, drawGlyphs, narrow]
    simp
  · intro glyph member
    exact trail ▸ List.mem_map_of_mem (mem_fitting member).1

/-- Without room for it, only the lead is drawn. -/
theorem mem_lead_of_full {half : Nat} (full : half ≤ status.lead.length) {glyph : Glyph}
    (member : glyph ∈ fitting half half (status.left.flatMap Span.glyphs)) :
    glyph.symbol ∈ status.lead := by
  rcases Nat.eq_zero_or_pos half with rfl | wide
  · simp [fitting_zero] at member
  · obtain ⟨before, _, _, glyphs, lead, _, _⟩ := status.fitting_left wide
    rw [glyphs, Nat.sub_eq_zero_of_le full, fitting_zero, List.append_nil] at member
    exact lead ▸ List.mem_map_of_mem (List.mem_of_mem_take member)

theorem mem_left {glyph : Glyph} (member : glyph ∈ status.left.flatMap Span.glyphs) :
    glyph.symbol ∈ status.lead ∨ glyph.symbol = status.symbol ∨ glyph.symbol ∈ status.trail := by
  have given := List.mem_map_of_mem (f := Glyph.symbol) member
  rw [left_symbols] at given
  simpa using given

theorem left_drawn (message : Legible status.message.toList) (screen : Screen) (width row : Nat) :
    Drawn (status.marks width (row + 1)) screen
      (screen.drawLine 0 row ((width + 1) / 2) .left status.left) := by
  have lead := status.plain_lead.legible
  have trail := legible_trail message
  by_cases shown : isControl status.symbol = true ∧ status.symbol ≠ '\n'
  · by_cases room : status.lead.length < (width + 1) / 2
    · obtain ⟨before, glyph, after, line, symbols, symbol, rest⟩ :=
        drawLine_left shown.1 shown.2 room screen row
      rw [line]
      refine ((drawn_drawGlyphs fun glyph member _ _ _ => ?_).trans (drawn_draw ?_)).trans
        (drawn_drawGlyphs fun glyph member _ _ _ => ?_)
      · exact marks_of_clean (lead _ (symbols ▸ List.mem_map_of_mem member))
      · exact fun _ => ⟨symbol, symbol ▸ shown.2, rfl, room, rfl⟩
      · exact marks_of_clean (trail _ (rest glyph member))
    · refine drawn_drawGlyphs fun glyph member _ _ _ => marks_of_clean (lead _ ?_)
      exact mem_lead_of_full (Nat.le_of_not_lt room) member
  · refine drawn_drawGlyphs fun glyph member _ _ _ => marks_of_clean ?_
    obtain ⟨given, visible⟩ := mem_fitting member
    obtain leading | current | trailing := mem_left given
    · exact lead _ leading
    · by_contra control
      exact shown ⟨current ▸ eq_true_of_ne_false control, current ▸ visible⟩
    · exact trail _ trailing

theorem left_shows (control : isControl status.symbol = true) (visible : status.symbol ≠ '\n')
    {half : Nat} (room : status.lead.length < half) {screen : Screen} {row : Nat}
    (present : (screen.symbol? status.lead.length row).isSome) :
    (screen.drawLine 0 row half .left status.left).symbol? status.lead.length row =
      some status.symbol := by
  obtain ⟨before, glyph, after, line, _, symbol, _⟩ :=
    drawLine_left control visible room screen row
  have lead : Drawn (fun _ _ _ => True) screen (screen.drawGlyphs 0 row before) :=
    drawn_drawGlyphs fun _ _ _ _ _ => trivial
  have rest (screen : Screen) : Drawn (fun x _ _ => status.lead.length + 1 ≤ x) screen
      (screen.drawGlyphs (status.lead.length + 1) row after) :=
    drawn_drawGlyphs fun _ _ _ right _ => right
  obtain ⟨under, found⟩ := Option.isSome_iff_exists.mp (lead.isSome present)
  rw [line, (rest _).unchanged fun _ => Nat.not_succ_le_self _, symbol?_draw, if_pos ⟨rfl, rfl⟩,
    found, symbol]
  rfl

theorem right_drawn (status : Status) (area : Area) (screen : Screen) :
    Drawn (fun x _ symbol => area.x ≤ x ∧ isControl symbol = false) screen
      (drawHalf .right status.right area screen) := by
  refine (drawn_fill area bar).trans (drawn_drawParagraph ?_)
  intro line single span inLine symbol member _ column row inside
  rw [List.mem_singleton.mp single] at inLine
  exact ⟨inside.1.1, status.legible_right span inLine symbol member⟩

theorem drawHalf_left (line : Line) (row half : Nat) (screen : Screen) :
    drawHalf .left line ⟨0, row, half, 1⟩ screen =
      (screen.fill ⟨0, row, half, 1⟩ bar).drawLine 0 row half .left line := rfl

theorem draw_row (status : Status) (row width : Nat) (screen : Screen) :
    status.draw ⟨0, row, width, 1⟩ screen =
      drawHalf .right status.right ⟨(width + 1) / 2, row, width - (width + 1) / 2, 1⟩
        (drawHalf .left status.left ⟨0, row, (width + 1) / 2, 1⟩ screen) := by
  rw [draw, Area.splitColumns, Nat.zero_add]

end Status

theorem layout_status (width row : Nat) : (layout width (row + 1)).status = ⟨0, row, width, 1⟩ := by
  simp [layout, Area.splitRows]

namespace Status

variable {status : Status}

theorem drawn (message : Legible status.message.toList) (screen : Screen) (width height : Nat) :
    Drawn (status.marks width height) screen
      (status.draw (layout width height).status screen) := by
  cases height with
  | zero => exact (drawn_fill _ _).trans (drawn_fill _ _)
  | succ row =>
    rw [layout_status, draw_row, drawHalf_left]
    have leftHalf : Drawn (status.marks width (row + 1)) screen
        ((screen.fill ⟨0, row, (width + 1) / 2, 1⟩ bar).drawLine 0 row ((width + 1) / 2) .left
          status.left) :=
      (drawn_fill _ _).trans (left_drawn message _ width row)
    refine leftHalf.trans ?_
    exact (status.right_drawn _ _).mono fun _ _ _ right => marks_of_clean right.2

theorem shows_control (control : isControl status.symbol = true) (visible : status.symbol ≠ '\n')
    {width row : Nat} (room : status.lead.length < (width + 1) / 2) {screen : Screen}
    (present : (screen.symbol? status.lead.length row).isSome) :
    (status.draw (layout width (row + 1)).status screen).symbol? status.lead.length row =
      some status.symbol := by
  have filled : Drawn (fun _ _ _ => False) screen (screen.fill ⟨0, row, (width + 1) / 2, 1⟩ bar) :=
    drawn_fill _ _
  have shown := left_shows control visible room (filled.isSome present)
  rw [layout_status, draw_row, drawHalf_left, ← shown]
  exact (status.right_drawn _ _).unchanged fun _ right => Nat.not_le_of_lt room right.1

end Status

variable {σ : Type}

theorem legible_error (error : HistoryError) : Legible error.message.toList := by
  cases error with
  | atStart | noSnapshots => decide
  | atEnd position => refine .concat (.concat ?_ (legible_natural position)) ?_ <;> decide
  | snapshotMissing index => refine .concat (.concat ?_ (legible_natural index)) ?_ <;> decide
  | budgetExceeded usage budget =>
    refine .concat (.concat (.concat ?_ (legible_natural usage)) ?_) (legible_natural budget) <;>
      decide

theorem legible_move {viewer : Viewer σ} {success failure : String}
    (succeeds : Legible success.toList) (fails : Legible failure.toList)
    (result : Except HistoryError (Session σ)) :
    Legible (viewer.move success failure result).message.toList := by
  cases result with
  | ok session => exact succeeds
  | error error => exact .concat (.concat fails (by decide)) (legible_error error)

theorem legible_handle {viewer : Viewer σ} (legible : Legible viewer.message.toList)
    (event : Event) : Legible (viewer.handle event).message.toList := by
  cases event with
  | render width height => exact legible
  | tick sinceStep =>
    simp only [handle, tick]
    split
    · split
      · exact (by decide : Legible "Playing...".toList)
      · exact (by decide : Legible "Playback complete".toList)
    · exact legible
  | key key sinceSpace =>
    cases key with
    | character symbol =>
      simp only [handle, press, pressCharacter]
      split_ifs
      · exact legible
      · refine .concat (.concat ?_ (legible_natural _)) ?_ <;> decide
      · simp only [togglePlay]
        split <;> decide
      · exact legible
    | left | right | enter | backspace => exact legible_move (by decide) (by decide) _
    | up | down =>
      simp only [handle, press, scrollFocused]
      split <;> exact legible
    | tab | backTab | other => exact legible

theorem legible_after (session : Session σ) (events : List Event) :
    Legible ((new session).after events).message.toList := by
  have keeps : ∀ (viewer : Viewer σ), Legible viewer.message.toList →
      Legible (viewer.after events).message.toList := by
    induction events with
    | nil => exact fun _ legible => legible
    | cons event events ih => exact fun viewer legible => ih _ (legible_handle legible event)
  exact keeps (new session) (by decide : Legible "Ready!".toList)

/-- The status bar comes last, on top of clean panes. -/
theorem draw_over_panes (viewer : Viewer σ) (width height : Nat) : ∃ panes,
    Drawn clean (Screen.blank width height) panes ∧
      (viewer.draw width height).1 = viewer.status.draw (layout width height).status panes :=
  ⟨_, ((viewer.fieldView.drawn _ _ _).trans (OutputPane.drawn _ _ _ _)).trans
    (StackPane.drawn _ _ _ _), rfl⟩

/-- A control character is on the screen in one case only: it is under the pointer, and the left
half of the status bar reaches far enough to show it. -/
theorem control_shown_iff (viewer : Viewer σ) (starter : Session σ) (events : List Event)
    (width height x y : Nat) :
    let noted := viewer.note ((new starter).after events).message
    let symbol := viewer.session.machine.symbol
    (∃ glyph, (noted.draw width height).1.get? x y = some glyph ∧ isControl glyph.symbol = true) ↔
      isControl symbol = true ∧ symbol ≠ '\n' ∧
        x = noted.status.lead.length ∧ x < (width + 1) / 2 ∧ y + 1 = height := by
  intro noted symbol
  have message : Legible noted.status.message.toList := legible_after starter events
  have same : noted.status.symbol = symbol := rfl
  clear_value noted symbol
  subst same
  obtain ⟨panes, clean, screen⟩ := noted.draw_over_panes width height
  rw [screen]
  constructor
  · rintro ⟨glyph, found, control⟩
    have shown : (noted.status.draw (layout width height).status panes).symbol? x y =
        some glyph.symbol := congrArg (Option.map Glyph.symbol) found
    have drawn := (clean.mono fun _ _ _ => Status.marks_of_clean).trans
      (Status.drawn message panes width height)
    obtain same | ⟨other, marks, here⟩ := drawn x y
    · rw [shown, symbol?_blank] at same
      split_ifs at same
      rw [Option.some.inj same] at control
      exact absurd control (by decide)
    · obtain rfl : other = glyph.symbol := Option.some.inj (here.symm.trans shown)
      obtain ⟨current, visible, place⟩ := marks control
      exact ⟨current ▸ control, current ▸ visible, place⟩
  · rintro ⟨control, visible, place, room, last⟩
    subst place last
    have present : ((Screen.blank width (y + 1)).symbol? noted.status.lead.length y).isSome := by
      rw [symbol?_blank, if_pos (by omega)]
      rfl
    have shown := Status.shows_control control visible room (clean.isSome present)
    obtain ⟨glyph, found, current⟩ := Option.map_eq_some_iff.mp shown
    exact ⟨glyph, found, current ▸ control⟩

theorem tab_reaches_screen :
    let viewer := ofRun (Session.new "\t@" ⟨100, true, 10000⟩ (Script.ofList []))
    (viewer.draw 60 5).1.symbol? 26 4 = some '\t' ∧ isControl '\t' = true := by
  decide +kernel

end Viewer

end Befunge
