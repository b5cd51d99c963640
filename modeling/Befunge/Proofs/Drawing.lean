import Befunge.Screen.Frame
import Befunge.Screen.Line
import Mathlib.Tactic.SplitIfs

/-! What drawing does to the symbols of a screen: a cell keeps its symbol, or gets one that was
to be drawn at its place. -/
namespace Befunge

namespace Area

/-- The cell lies in the area. -/
def Holds (area : Area) (x y : Nat) : Prop :=
  (area.x ≤ x ∧ x < area.x + area.width) ∧ area.y ≤ y ∧ y < area.y + area.height

/-- The cell lies at a side of the area, where a frame is drawn. -/
def Rim (area : Area) (x y : Nat) : Prop := area.Holds x y ∧ ¬ area.inner.Holds x y

end Area

namespace Screen

theorem mem_and_lt_of_mem_zipIdx_take {α : Type} {items : List α} {count : Nat} {item : α × Nat}
    (member : item ∈ (items.take count).zipIdx) : item.1 ∈ items ∧ item.2 < count := by
  refine ⟨List.mem_of_mem_take (List.fst_mem_of_mem_zipIdx member), ?_⟩
  have inside := List.snd_lt_of_mem_zipIdx member
  rw [List.length_take] at inside
  omega

def symbol? (screen : Screen) (x y : Nat) : Option Char := (screen.get? x y).map Glyph.symbol

theorem symbol?_blank (width height x y : Nat) :
    (blank width height).symbol? x y = if x < width ∧ y < height then some ' ' else none := by
  rw [symbol?, blank, Raster.get?_replicate]
  split_ifs <;> rfl

/-- Each cell is as it was, or has a symbol that is admitted there. -/
def Drawn (admits : Nat → Nat → Char → Prop) (before after : Screen) : Prop :=
  ∀ x y, after.symbol? x y = before.symbol? x y ∨
    ∃ symbol, admits x y symbol ∧ after.symbol? x y = some symbol

variable {admits : Nat → Nat → Char → Prop} {screen : Screen}

namespace Drawn

theorem refl (screen : Screen) : Drawn admits screen screen := fun _ _ => .inl rfl

theorem trans {first second third : Screen} (before : Drawn admits first second)
    (after : Drawn admits second third) : Drawn admits first third := by
  intro x y
  obtain same | drawn := after x y
  · rw [same]
    exact before x y
  · exact .inr drawn

theorem mono {others : Nat → Nat → Char → Prop} {before after : Screen}
    (drawn : Drawn admits before after)
    (more : ∀ x y symbol, admits x y symbol → others x y symbol) : Drawn others before after := by
  intro x y
  obtain same | ⟨symbol, admitted, found⟩ := drawn x y
  · exact .inl same
  · exact .inr ⟨symbol, more x y symbol admitted, found⟩

theorem foldl {α : Type} {items : List α} {step : Screen → α → Screen}
    (each : ∀ item ∈ items, ∀ screen, Drawn admits screen (step screen item)) (screen : Screen) :
    Drawn admits screen (items.foldl step screen) := by
  induction items generalizing screen with
  | nil => exact refl screen
  | cons item rest ih =>
    have first := each item List.mem_cons_self screen
    exact first.trans (ih (fun item member => each item (List.mem_cons_of_mem _ member)) _)

theorem unchanged {before after : Screen} (drawn : Drawn admits before after) {x y : Nat}
    (spared : ∀ symbol, ¬ admits x y symbol) : after.symbol? x y = before.symbol? x y := by
  obtain same | ⟨symbol, admitted, _⟩ := drawn x y
  · exact same
  · exact absurd admitted (spared symbol)

/-- Cells are not lost. -/
theorem isSome {before after : Screen} (drawn : Drawn admits before after) {x y : Nat}
    (present : (before.symbol? x y).isSome) : (after.symbol? x y).isSome := by
  obtain same | ⟨symbol, _, found⟩ := drawn x y
  · rwa [same]
  · simp [found]

end Drawn

theorem symbol?_draw (screen : Screen) (x y column row : Nat) (glyph : Glyph) :
    (screen.draw x y glyph).symbol? column row =
      if column = x ∧ row = y then (screen.symbol? column row).map fun _ => glyph.symbol
      else screen.symbol? column row := by
  rw [symbol?, draw, Raster.get?_modify]
  split_ifs <;> simp [symbol?, Function.comp_def]

theorem symbol?_clear (screen : Screen) (x y column row : Nat) :
    (screen.clear x y).symbol? column row =
      if column = x ∧ row = y then (screen.symbol? column row).map fun _ => ' '
      else screen.symbol? column row := by
  rw [symbol?, clear, Raster.get?_modify]
  split_ifs <;> simp [symbol?, Glyph.empty, Function.comp_def]

@[simp]
theorem symbol?_restyle (screen : Screen) (x y column row : Nat) (style : Style) :
    (screen.restyle x y style).symbol? column row = screen.symbol? column row := by
  rw [symbol?, restyle, Raster.get?_modify]
  split_ifs <;> simp [symbol?, Function.comp_def]

theorem drawn_of_eq_ite {after : Screen} {x y : Nat} {symbol : Char} (admitted : admits x y symbol)
    (change : ∀ column row, after.symbol? column row =
      if column = x ∧ row = y then (screen.symbol? column row).map fun _ => symbol
      else screen.symbol? column row) : Drawn admits screen after := by
  intro column row
  rw [change]
  split_ifs with here
  · obtain ⟨rfl, rfl⟩ := here
    cases screen.symbol? column row with
    | none => exact .inl rfl
    | some _ => exact .inr ⟨symbol, admitted, rfl⟩
  · exact .inl rfl

theorem drawn_draw {x y : Nat} {glyph : Glyph} (admitted : admits x y glyph.symbol) :
    Drawn admits screen (screen.draw x y glyph) :=
  drawn_of_eq_ite admitted fun _ _ => symbol?_draw ..

theorem drawn_clear {x y : Nat} (admitted : admits x y ' ') :
    Drawn admits screen (screen.clear x y) :=
  drawn_of_eq_ite admitted fun _ _ => symbol?_clear ..

theorem drawn_fill (area : Area) (style : Style) : Drawn admits screen (screen.fill area style) :=
  Drawn.foldl (fun _ _ screen => Drawn.foldl (fun _ _ _ _ _ => .inl (by simp)) screen) screen

theorem drawn_drawAcross {x y count : Nat} {glyph : Glyph}
    (admitted : ∀ column < count, admits (x + column) y glyph.symbol) :
    Drawn admits screen (screen.drawAcross x y count glyph) :=
  Drawn.foldl (fun column member _ => drawn_draw (admitted column (List.mem_range.mp member))) screen

theorem drawn_drawDown {x y count : Nat} {glyph : Glyph}
    (admitted : ∀ row < count, admits x (y + row) glyph.symbol) :
    Drawn admits screen (screen.drawDown x y count glyph) :=
  Drawn.foldl (fun row member _ => drawn_draw (admitted row (List.mem_range.mp member))) screen

/-- The symbols that frames consist of. -/
def sides : List Char := ['│', '─', '┘', '┐', '└', '┌']

theorem drawn_frame {frame : Frame} {area : Area}
    (admitted : ∀ symbol ∈ sides ++ frame.title, ∀ x y, area.Rim x y → admits x y symbol) :
    Drawn admits screen (frame.draw screen area) := by
  rw [Frame.draw]
  split_ifs with empty
  · exact .refl screen
  have size : area.width ≠ 0 ∧ area.height ≠ 0 := by simpa [Area.isEmpty] using empty
  have side {symbol : Char} (member : symbol ∈ sides) {x y : Nat}
      (columns : area.x ≤ x ∧ x < area.x + area.width)
      (rows : area.y ≤ y ∧ y < area.y + area.height)
      (edge : (x = area.x ∨ x = area.x + area.width - 1) ∨
        y = area.y ∨ y = area.y + area.height - 1) : admits x y symbol := by
    refine admitted symbol (List.mem_append_left _ member) x y ⟨⟨columns, rows⟩, ?_⟩
    simp only [Area.Holds, Area.inner]
    omega
  have vertical : '│' ∈ sides := by simp [sides]
  have horizontal : '─' ∈ sides := by simp [sides]
  have rectangle : Drawn admits screen (Frame.drawSides frame.style screen area) := by
    refine ((drawn_drawDown fun row inside => side vertical ?_ ?_ (.inl (.inl rfl))).trans
      (drawn_drawAcross fun column inside => side horizontal ?_ ?_ (.inr (.inl rfl)))).trans
      ((drawn_drawDown fun row inside => side vertical ?_ ?_ (.inl (.inr rfl))).trans
      (drawn_drawAcross fun column inside => side horizontal ?_ ?_ (.inr (.inr rfl)))) <;> omega
  have corner {symbol : Char} (member : symbol ∈ sides) {x y : Nat}
      (column : x = area.x ∨ x = area.x + area.width - 1)
      (row : y = area.y ∨ y = area.y + area.height - 1) : admits x y symbol :=
    side member (by omega) (by omega) (.inl column)
  have corners (screen : Screen) :
      Drawn admits screen (Frame.drawCorners frame.style screen area) :=
    (drawn_draw (corner (by simp [sides]) (.inr rfl) (.inr rfl))).trans <|
      (drawn_draw (corner (by simp [sides]) (.inr rfl) (.inl rfl))).trans <|
      (drawn_draw (corner (by simp [sides]) (.inl rfl) (.inr rfl))).trans
        (drawn_draw (corner (by simp [sides]) (.inl rfl) (.inl rfl)))
  refine (rectangle.trans (corners _)).trans (Drawn.foldl (fun item member screen => ?_) _)
  obtain ⟨titled, short⟩ := mem_and_lt_of_mem_zipIdx_take member
  refine drawn_draw (admitted item.1 (List.mem_append_right _ titled) _ _ ?_)
  simp only [Area.Rim, Area.Holds, Area.inner]
  omega

theorem drawGlyphs_append (screen : Screen) (x y : Nat) (first second : List Glyph) :
    screen.drawGlyphs x y (first ++ second) =
      (screen.drawGlyphs x y first).drawGlyphs (x + Text.totalColumns (first.map Glyph.symbol)) y
        second := by
  induction first generalizing screen x with
  | nil => rfl
  | cons glyph rest ih =>
    simp only [List.cons_append, drawGlyphs, ih, List.map_cons, Text.totalColumns, Nat.add_assoc]

theorem columns_pos (symbol : Char) : 0 < Text.columns symbol := by
  unfold Text.columns
  split <;> decide

theorem drawn_drawGlyphs {x y : Nat} {glyphs : List Glyph}
    (admitted : ∀ glyph ∈ glyphs, ∀ column ≥ x,
      column < x + Text.totalColumns (glyphs.map Glyph.symbol) → admits column y glyph.symbol) :
    Drawn admits screen (screen.drawGlyphs x y glyphs) := by
  induction glyphs generalizing screen x with
  | nil => exact .refl screen
  | cons glyph rest ih =>
    have wide := columns_pos glyph.symbol
    simp only [List.map_cons, Text.totalColumns] at admitted
    have first : Drawn admits screen (screen.draw x y glyph) :=
      drawn_draw (admitted glyph List.mem_cons_self x (Nat.le_refl x) (by omega))
    refine first.trans (ih fun glyph member column right inside => ?_)
    exact admitted glyph (List.mem_cons_of_mem _ member) column (by omega) (by omega)

theorem mem_fitting {width room : Nat} {glyphs : List Glyph} {glyph : Glyph}
    (member : glyph ∈ fitting width room glyphs) : glyph ∈ glyphs ∧ glyph.symbol ≠ '\n' := by
  fun_induction fitting width room glyphs with
  | case1 => simp at member
  | case2 room head rest columns passed ih => exact ⟨.tail _ (ih member).1, (ih member).2⟩
  | case3 => simp at member
  | case4 room head rest columns kept fits ih =>
    obtain rfl | later := List.mem_cons.mp member
    · exact ⟨.head _, fun line => kept (.inl line)⟩
    · exact ⟨.tail _ (ih later).1, (ih later).2⟩

theorem fitting_zero (width : Nat) (glyphs : List Glyph) : fitting width 0 glyphs = [] := by
  induction glyphs with
  | nil => rfl
  | cons glyph rest ih => simp [fitting, ih, columns_pos]

/-- Of a narrow text as much fits as there is room. -/
theorem fitting_append {width : Nat} (wide : 0 < width) {glyphs : List Glyph}
    (narrow : ∀ glyph ∈ glyphs, glyph.symbol ≠ '\n' ∧ Text.columns glyph.symbol = 1)
    (room : Nat) (rest : List Glyph) : fitting width room (glyphs ++ rest) =
      glyphs.take room ++ fitting width (room - glyphs.length) rest := by
  induction glyphs generalizing room with
  | nil => simp
  | cons glyph glyphs ih =>
    obtain ⟨line, columns⟩ := narrow glyph List.mem_cons_self
    cases room with
    | zero => simp [fitting_zero]
    | succ room =>
      simp [fitting, columns, line, Nat.ne_of_gt wide,
        ih (fun glyph member => narrow glyph (List.mem_cons_of_mem _ member))]

theorem totalColumns_fitting_le (width room : Nat) (glyphs : List Glyph) :
    Text.totalColumns ((fitting width room glyphs).map Glyph.symbol) ≤ room := by
  fun_induction fitting width room glyphs with
  | case1 => exact Nat.zero_le _
  | case2 room head rest columns passed ih => exact ih
  | case3 => exact Nat.zero_le _
  | case4 room head rest columns kept fits ih =>
    simp only [List.map_cons, Text.totalColumns]
    omega

theorem drawn_drawLine {x y width : Nat} {alignment : Alignment} {line : Line}
    (admitted : ∀ span ∈ line, ∀ symbol ∈ span.text, symbol ≠ '\n' →
      ∀ column ≥ x, column < x + width → admits column y symbol) :
    Drawn admits screen (screen.drawLine x y width alignment line) := by
  have fits := totalColumns_fitting_le width width (line.flatMap Span.glyphs)
  refine drawn_drawGlyphs fun glyph member column right inside => ?_
  obtain ⟨given, visible⟩ := mem_fitting member
  obtain ⟨span, inLine, inSpan⟩ := List.mem_flatMap.mp given
  obtain ⟨symbol, inText, rfl⟩ := List.mem_map.mp inSpan
  refine admitted span inLine symbol inText visible column (Nat.le_of_add_right_le right) ?_
  cases alignment <;> simp only at inside <;> omega

theorem drawn_drawParagraph {area : Area} {alignment : Alignment} {lines : List Line}
    (admitted : ∀ line ∈ lines, ∀ span ∈ line, ∀ symbol ∈ span.text, symbol ≠ '\n' →
      ∀ x y, area.Holds x y → admits x y symbol) :
    Drawn admits screen (screen.drawParagraph area alignment lines) := by
  refine Drawn.foldl (fun item member screen => drawn_drawLine ?_) screen
  obtain ⟨given, inside⟩ := mem_and_lt_of_mem_zipIdx_take member
  intro span inLine symbol inText visible column right left
  refine admitted item.1 given span inLine symbol inText visible _ _ ⟨⟨right, left⟩, ?_⟩
  omega

theorem drawn_drawText {style : Style} {y x room : Nat} {text : List Char}
    (admitted : ∀ symbol ∈ ' ' :: text, ∀ column ≥ x, column < x + room →
      admits column y symbol) :
    Drawn admits screen (drawText style y screen x room text) := by
  induction text generalizing screen x room with
  | nil => exact .refl screen
  | cons symbol rest ih =>
    by_cases full : room < Text.columns symbol
    · rw [drawText, if_pos full]
      exact .refl screen
    rw [drawText, if_neg full]
    have wide := columns_pos symbol
    have first : Drawn admits screen (screen.draw x y ⟨symbol, style⟩) :=
      drawn_draw (admitted symbol (by simp) x (Nat.le_refl x) (by omega))
    have second (screen : Screen) : Drawn admits screen
        (if Text.columns symbol = 2 then screen.clear (x + 1) y else screen) := by
      split_ifs
      · exact drawn_clear (admitted ' ' (by simp) (x + 1) (by omega) (by omega))
      · exact .refl screen
    refine (first.trans (second _)).trans (ih fun symbol member column right inside => ?_)
    refine admitted symbol ?_ column (by omega) (by omega)
    obtain rfl | later := List.mem_cons.mp member
    · exact List.mem_cons_self
    · exact List.mem_cons_of_mem _ (List.mem_cons_of_mem _ later)

theorem drawn_drawSpans {y x room : Nat} {line : Line}
    (blank : ∀ column ≥ x, column < x + room → admits column y ' ')
    (admitted : ∀ span ∈ line, ∀ symbol ∈ span.text, ∀ column ≥ x, column < x + room →
      admits column y symbol) :
    Drawn admits screen (drawSpans y screen x room line) := by
  induction line generalizing screen x room with
  | nil => exact .refl screen
  | cons span rest ih =>
    rw [drawSpans]
    split_ifs
    · exact .refl screen
    have first : Drawn admits screen (drawText span.style y screen x room span.text) := by
      refine drawn_drawText fun symbol member => ?_
      obtain rfl | inText := List.mem_cons.mp member
      · exact blank
      · exact admitted span List.mem_cons_self symbol inText
    refine first.trans (ih (fun column right inside => ?_) fun span member symbol inText column right
      inside => ?_)
    · exact blank column (by omega) (by omega)
    · exact admitted span (List.mem_cons_of_mem _ member) symbol inText column (by omega) (by omega)

theorem drawn_drawItems {area : Area} {items : List (Line × Style)}
    (blank : ∀ x y, area.Holds x y → admits x y ' ')
    (admitted : ∀ item ∈ items, ∀ span ∈ item.1, ∀ symbol ∈ span.text,
      ∀ x y, area.Holds x y → admits x y symbol) :
    Drawn admits screen (screen.drawItems area items) := by
  refine Drawn.foldl (fun item member screen => ?_) screen
  obtain ⟨given, inside⟩ := mem_and_lt_of_mem_zipIdx_take member
  have row {x : Nat} (right : x ≥ area.x) (left : x < area.x + area.width) :
      area.Holds x (area.y + item.2) := ⟨⟨right, left⟩, by omega⟩
  exact (drawn_fill _ _).trans <| drawn_drawSpans
    (fun column right left => blank column _ (row right left))
    fun span inLine symbol inText column right left =>
      admitted item.1 given span inLine symbol inText column _ (row right left)

end Screen

end Befunge
