import Befunge.Proofs.Drawing
import Mathlib.Algebra.Order.Group.Nat

/-! Text laid over a screen glyph by glyph. Each glyph is found again at its place, and a frame stays
out of the area that it encloses. -/
namespace Befunge

/-- A glyph as it looks once it is drawn over another one. -/
def Glyph.over (upper lower : Glyph) : Glyph := ⟨upper.symbol, upper.style.atop lower.style⟩

theorem Glyph.over_empty (glyph : Glyph) : glyph.over .empty = glyph := by
  simp [Glyph.over, Glyph.empty, Style.atop, Style.plain]

namespace Screen

abbrev Content := Nat → Nat → Option Glyph

/-- Each cell that the content has a glyph for is overdrawn with it, and no other one. -/
def Overlaid (content : Content) (before after : Screen) : Prop :=
  ∀ x y, after.get? x y =
    (before.get? x y).map fun under => ((content x y).map (·.over under)).getD under

namespace Content

def nothing : Content := fun _ _ => none

def spot (x y : Nat) (glyph : Glyph) : Content := fun column row =>
  if column = x ∧ row = y then some glyph else none

def strip (x y : Nat) (glyphs : List Glyph) : Content := fun column row =>
  if row = y ∧ x ≤ column then glyphs[column - x]? else none

def block (x y : Nat) (rows : List (List Glyph)) : Content := fun column row =>
  if y ≤ row ∧ x ≤ column then rows[row - y]?.bind (·[column - x]?) else none

def beside (first second : Content) : Content := fun x y => (first x y).or (second x y)

def Apart (first second : Content) : Prop := ∀ x y, first x y = none ∨ second x y = none

theorem strip_nil (x y : Nat) : strip x y [] = nothing := by
  funext column row
  simp [strip, nothing]

theorem block_nil (x y : Nat) : block x y [] = nothing := by
  funext column row
  simp [block, nothing]

theorem strip_cons (x y : Nat) (glyph : Glyph) (glyphs : List Glyph) :
    strip x y (glyph :: glyphs) = (spot x y glyph).beside (strip (x + 1) y glyphs) := by
  funext column row
  rcases Nat.lt_trichotomy column x with before | rfl | after
  · simp [strip, spot, beside, Nat.ne_of_lt before, Nat.not_le_of_lt before,
      Nat.not_le_of_lt (Nat.lt_succ_of_lt before)]
  · simp [strip, spot, beside]
  · obtain ⟨more, rfl⟩ := Nat.exists_eq_add_of_lt after
    have next : x + (more + 1) - (x + 1) = more := by omega
    simp [strip, spot, beside, next, Nat.add_assoc]

theorem block_cons (x y : Nat) (glyphs : List Glyph) (rows : List (List Glyph)) :
    block x y (glyphs :: rows) = (strip x y glyphs).beside (block x (y + 1) rows) := by
  funext column row
  rcases Nat.lt_trichotomy row y with above | rfl | below
  · simp [strip, block, beside, Nat.ne_of_lt above, Nat.not_le_of_lt above,
      Nat.not_le_of_lt (Nat.lt_succ_of_lt above)]
  · simp [strip, block, beside]
  · obtain ⟨more, rfl⟩ := Nat.exists_eq_add_of_lt below
    have next : y + (more + 1) - (y + 1) = more := by omega
    simp [strip, block, beside, next, Nat.add_assoc]

end Content

open Content

variable {first second : Content} {before middle after : Screen}

theorem Overlaid.refl (screen : Screen) : Overlaid nothing screen screen := by
  intro x y
  simp [nothing]

theorem Overlaid.trans (lower : Overlaid first before middle) (upper : Overlaid second middle after)
    (apart : first.Apart second) : Overlaid (first.beside second) before after := by
  intro x y
  rw [upper, lower, Option.map_map]
  congr 1
  funext under
  rcases apart x y with none | none <;> simp [none, beside]

theorem overlaid_draw (screen : Screen) (x y : Nat) (glyph : Glyph) :
    Overlaid (spot x y glyph) screen (screen.draw x y glyph) := by
  intro column row
  rw [draw, Raster.get?_modify, spot]
  split_ifs
  · rfl
  · simp

theorem overlaid_drawGlyphs {glyphs : List Glyph}
    (narrow : ∀ glyph ∈ glyphs, Text.columns glyph.symbol = 1) (screen : Screen) (x y : Nat) :
    Overlaid (strip x y glyphs) screen (screen.drawGlyphs x y glyphs) := by
  induction glyphs generalizing screen x with
  | nil =>
    rw [strip_nil]
    exact .refl screen
  | cons glyph glyphs ih =>
    obtain ⟨single, narrow⟩ := List.forall_mem_cons.mp narrow
    rw [strip_cons, drawGlyphs, single]
    -- The remaining glyphs start in the next column, so nothing is drawn twice.
    refine (overlaid_draw screen x y glyph).trans (ih narrow _ _) fun column row => ?_
    simp only [spot, strip]
    split_ifs <;> simp
    omega

theorem overlaid_drawLine {width : Nat} (wide : 0 < width) {line : Line}
    (narrow : ∀ glyph ∈ line.flatMap Span.glyphs,
      glyph.symbol ≠ '\n' ∧ Text.columns glyph.symbol = 1) (screen : Screen) (x y : Nat) :
    Overlaid (strip x y ((line.flatMap Span.glyphs).take width)) screen
      (screen.drawLine x y width .left line) := by
  have fits := fitting_append wide narrow width []
  simp only [List.append_nil, fitting] at fits
  rw [drawLine, fits]
  apply overlaid_drawGlyphs
  intro glyph member
  exact (narrow glyph (List.mem_of_mem_take member)).2

/-- The glyphs of a line that are drawn in a row of the given width. -/
def cut (width : Nat) (line : Line) : List Glyph := (line.flatMap Span.glyphs).take width

theorem overlaid_rows {x y width : Nat} (wide : 0 < width) {lines : List Line}
    (narrow : ∀ line ∈ lines, ∀ glyph ∈ line.flatMap Span.glyphs,
      glyph.symbol ≠ '\n' ∧ Text.columns glyph.symbol = 1) (start : Nat) (screen : Screen) :
    Overlaid (block x (y + start) (lines.map (cut width))) screen
      ((lines.zipIdx start).foldl (fun screen (line, row) =>
        screen.drawLine x (y + row) width .left line) screen) := by
  induction lines generalizing start screen with
  | nil =>
    rw [List.map_nil, block_nil]
    exact .refl screen
  | cons line lines ih =>
    obtain ⟨head, narrow⟩ := List.forall_mem_cons.mp narrow
    rw [List.map_cons, block_cons, List.zipIdx_cons, List.foldl_cons]
    refine (overlaid_drawLine wide head screen _ _).trans (ih narrow _ _) ?_
    intro column row
    simp only [strip, block]
    split_ifs <;> simp
    omega

theorem overlaid_drawParagraph {area : Area} (wide : 0 < area.width) {lines : List Line}
    (narrow : ∀ line ∈ lines, ∀ glyph ∈ line.flatMap Span.glyphs,
      glyph.symbol ≠ '\n' ∧ Text.columns glyph.symbol = 1) (screen : Screen) :
    Overlaid (block area.x area.y ((lines.take area.height).map (cut area.width))) screen
      (screen.drawParagraph area .left lines) :=
  overlaid_rows wide (fun line member => narrow line (List.mem_of_mem_take member)) 0 screen

section Border

/-- No cell is drawn in black, and those inside the area have not been drawn at all. -/
def Vacant (area : Area) (screen : Screen) : Prop :=
  ∀ x y glyph, screen.get? x y = some glyph → glyph.style.foreground ≠ some .black ∧
    (area.x ≤ x ∧ x < area.x + area.width → area.y ≤ y ∧ y < area.y + area.height →
      glyph = .empty)

variable {area : Area} {screen : Screen}

theorem vacant_blank (area : Area) (width height : Nat) : Vacant area (blank width height) := by
  intro x y glyph found
  rw [blank, Raster.get?_replicate] at found
  split_ifs at found
  obtain rfl := Option.some.inj found
  exact ⟨by decide, fun _ _ => rfl⟩

theorem Vacant.draw (vacant : Vacant area screen) {x y : Nat} {glyph : Glyph}
    (outside : ¬ (area.x ≤ x ∧ x < area.x + area.width) ∨
      ¬ (area.y ≤ y ∧ y < area.y + area.height))
    (colored : glyph.style.foreground ≠ some .black) : Vacant area (screen.draw x y glyph) := by
  intro column row drawn found
  rw [Screen.draw, Raster.get?_modify] at found
  split_ifs at found with here
  · obtain ⟨rfl, rfl⟩ := here
    obtain ⟨under, present, rfl⟩ := Option.map_eq_some_iff.mp found
    refine ⟨?_, fun inColumns inRows => ?_⟩
    · have below := (vacant column row under present).1
      cases ink : glyph.style.foreground with
      | none => simpa [Style.atop, ink] using below
      | some color => simpa [Style.atop, ink] using colored
    · exact outside.elim (absurd inColumns) (absurd inRows)
  · exact vacant column row drawn found

theorem Vacant.foldl {α : Type} {items : List α} {step : Screen → α → Screen}
    (each : ∀ item ∈ items, ∀ screen, Vacant area screen → Vacant area (step screen item))
    (vacant : Vacant area screen) : Vacant area (items.foldl step screen) := by
  induction items generalizing screen with
  | nil => exact vacant
  | cons item items ih =>
    exact ih (fun item member => each item (List.mem_cons_of_mem _ member))
      (each item List.mem_cons_self screen vacant)

theorem Vacant.drawEdge (vacant : Vacant area.inner screen) {x y : Nat} {glyph : Glyph}
    (edge : (x = area.x ∨ x = area.x + area.width - 1) ∨
      y = area.y ∨ y = area.y + area.height - 1)
    (colored : glyph.style.foreground ≠ some .black) :
    Vacant area.inner (screen.draw x y glyph) := by
  refine vacant.draw ?_ colored
  simp only [Area.inner]
  omega

theorem Vacant.drawDown (vacant : Vacant area.inner screen) {x y count : Nat} {glyph : Glyph}
    (edge : x = area.x ∨ x = area.x + area.width - 1)
    (colored : glyph.style.foreground ≠ some .black) :
    Vacant area.inner (screen.drawDown x y count glyph) :=
  vacant.foldl fun _ _ _ vacant => vacant.drawEdge (.inl edge) colored

theorem Vacant.drawAcross (vacant : Vacant area.inner screen) {x y count : Nat} {glyph : Glyph}
    (edge : y = area.y ∨ y = area.y + area.height - 1)
    (colored : glyph.style.foreground ≠ some .black) :
    Vacant area.inner (screen.drawAcross x y count glyph) :=
  vacant.foldl fun _ _ _ vacant => vacant.drawEdge (.inr edge) colored

theorem Vacant.drawFrame {frame : Frame} (vacant : Vacant area.inner screen)
    (colored : frame.style.foreground ≠ some .black) :
    Vacant area.inner (frame.draw screen area) := by
  rw [Frame.draw]
  split_ifs
  · exact vacant
  have sides : Vacant area.inner (Frame.drawSides frame.style screen area) :=
    (((vacant.drawDown (.inl rfl) colored).drawAcross (.inl rfl) colored).drawDown (.inr rfl)
      colored).drawAcross (.inr rfl) colored
  have corners : Vacant area.inner
      (Frame.drawCorners frame.style (Frame.drawSides frame.style screen area) area) :=
    (((sides.drawEdge (.inl (.inr rfl)) colored).drawEdge (.inl (.inr rfl)) colored).drawEdge
      (.inl (.inl rfl)) colored).drawEdge (.inl (.inl rfl)) colored
  exact corners.foldl fun _ _ _ vacant => vacant.drawEdge (.inr (.inl rfl)) (by simp [Style.plain])

end Border

end Screen

end Befunge
