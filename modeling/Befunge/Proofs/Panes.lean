import Befunge.Proofs.Drawing
import Befunge.Viewer.Basic

/-! The panes of a viewer keep to their own areas, and the areas do not overlap. So what is seen in
an area is what its pane has drawn there. -/
namespace Befunge

namespace Area

variable {area : Area} {x y : Nat}

theorem holds_add (area : Area) {column row : Nat} (across : column < area.width)
    (down : row < area.height) : area.Holds (area.x + column) (area.y + row) :=
  ⟨⟨Nat.le_add_right _ _, Nat.add_lt_add_left across _⟩, Nat.le_add_right _ _,
    Nat.add_lt_add_left down _⟩

theorem Holds.of_inner (inside : area.inner.Holds x y) : area.Holds x y := by
  simp only [Holds, inner] at inside ⊢
  omega

theorem Holds.of_indented (inside : area.indented.Holds x y) : area.Holds x y := by
  simp only [Holds, indented] at inside ⊢
  omega

end Area

namespace Screen

variable {screen : Screen} {area : Area}

/-- Admits every symbol in the area and none outside of it. -/
def within (area : Area) (x y : Nat) (_ : Char) : Prop := area.Holds x y

theorem symbol?_fill (screen : Screen) (area : Area) (style : Style) (x y : Nat) :
    (screen.fill area style).symbol? x y = screen.symbol? x y := by
  have drawn : Drawn (fun _ _ _ => False) screen (screen.fill area style) := drawn_fill area style
  exact drawn.unchanged fun _ => id

theorem within_frame (frame : Frame) : Drawn (within area) screen (frame.draw screen area) :=
  drawn_frame fun _ _ _ _ rim => rim.1

theorem symbol?_frame (frame : Frame) (screen : Screen) {x y : Nat}
    (inside : area.inner.Holds x y) : (frame.draw screen area).symbol? x y = screen.symbol? x y := by
  have drawn : Drawn (fun x y _ => area.Rim x y) screen (frame.draw screen area) :=
    drawn_frame fun _ _ _ _ rim => rim
  exact drawn.unchanged fun _ rim => rim.2 inside

theorem within_paragraph (alignment : Alignment) (lines : List Line) :
    Drawn (within area) screen (screen.drawParagraph area alignment lines) :=
  drawn_drawParagraph fun _ _ _ _ _ _ _ _ _ inside => inside

theorem within_items (items : List (Line × Style)) :
    Drawn (within area) screen (screen.drawItems area items) :=
  drawn_drawItems (fun _ _ inside => inside) fun _ _ _ _ _ _ _ _ inside => inside

theorem Drawn.of_inner {after : Screen} (drawn : Drawn (within area.inner) screen after) :
    Drawn (within area) screen after :=
  drawn.mono fun _ _ _ inside => Area.Holds.of_inner inside

theorem within_listing (listing : Listing) :
    Drawn (within area) screen (listing.draw area screen) := by
  refine (within_frame _).trans ((within_items listing.rows).mono fun x y _ inside => ?_)
  have padded : area.inner.Holds x y := by
    simp only [within, Listing.room] at inside
    split_ifs at inside
    · exact inside.of_indented
    · exact inside
  exact padded.of_inner

end Screen

/-- The screen shows the listing in the area, on a blank ground. -/
def Listing.OnScreen (listing : Listing) (area : Area) (screen : Screen) : Prop :=
  ∃ under : Screen, (∀ x y, area.Holds x y → under.symbol? x y = some ' ') ∧
    ∀ x y, area.Holds x y → screen.symbol? x y = (listing.draw area under).symbol? x y

namespace Viewer

open Screen

variable {screen : Screen}

theorem FieldView.draw_within (view : FieldView) (isFocused : Bool) (area : Area)
    (scroll : FieldScroll) :
    Drawn (within area) screen (view.draw isFocused area scroll screen).1 := by
  rw [FieldView.draw]
  split_ifs
  · exact ((drawn_fill _ _).trans (within_frame _)).trans (within_paragraph _ _).of_inner
  · exact (within_frame _).trans (within_paragraph _ _).of_inner

theorem StackPane.draw_within (stack : Stack) (isFocused : Bool) (area : Area)
    (scroll : StackScroll) :
    Drawn (within area) screen (StackPane.draw stack isFocused area scroll screen).1 :=
  within_listing _

theorem Status.drawHalf_within (alignment : Alignment) (line : Line) (area : Area) :
    Drawn (within area) screen (drawHalf alignment line area screen) :=
  (drawn_fill _ _).trans (within_paragraph _ _)

theorem Status.draw_within (status : Status) (area : Area) :
    Drawn (within area) screen (status.draw area screen) := by
  refine ((drawHalf_within .left _ _).mono fun x y _ inside => ?_).trans
    ((drawHalf_within .right _ _).mono fun x y _ inside => ?_)
  all_goals
    simp only [within, Area.Holds] at inside ⊢
    omega

theorem layout_output (width height : Nat) : (layout width height).output =
    ⟨0, sevenTenths (height - 1), sevenTenths width, height - 1 - sevenTenths (height - 1)⟩ := by
  simp [layout, Area.splitRows, Area.splitColumns]

section Apart

variable {width height x y : Nat} (inside : (layout width height).output.Holds x y)

include inside

theorem output_on_screen : x < width ∧ y < height := by
  simp only [layout_output, Area.Holds, sevenTenths] at inside
  omega

theorem output_apart : ¬ (layout width height).field.Holds x y ∧
    ¬ (layout width height).stack.Holds x y ∧ ¬ (layout width height).status.Holds x y := by
  simp only [layout_output, Area.Holds, sevenTenths] at inside
  simp only [layout, Area.splitRows, Area.splitColumns, Area.Holds, sevenTenths]
  omega

end Apart

variable {σ : Type}

/-- The output pane is drawn on an empty area, and nothing is drawn over it. -/
theorem draw_output (viewer : Viewer σ) (width height : Nat) : ∃ field : Screen,
    ∀ x y, (layout width height).output.Holds x y → field.symbol? x y = some ' ' ∧
      (viewer.draw width height).1.symbol? x y =
        (OutputPane.draw viewer.session.machine.output (viewer.focus = .output)
          (layout width height).output viewer.outputScroll field).1.symbol? x y := by
  refine ⟨(viewer.fieldView.draw (viewer.focus = .field) (layout width height).field
    viewer.fieldScroll (.blank width height)).1, fun x y inside => ?_⟩
  obtain ⟨field, stack, status⟩ := output_apart inside
  constructor
  · rw [(viewer.fieldView.draw_within _ _ _).unchanged fun _ => field, symbol?_blank,
      if_pos (output_on_screen inside)]
  · exact ((viewer.status.draw_within _).unchanged fun _ => status).trans
      ((StackPane.draw_within _ _ _ _).unchanged fun _ => stack)

end Viewer

end Befunge
