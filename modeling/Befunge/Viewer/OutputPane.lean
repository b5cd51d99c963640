import Befunge.Screen.Listing
import Befunge.Transcript
import Befunge.Viewer.Scroll
import Befunge.Viewer.Theme

/-! The pane that shows what the program has printed. -/
namespace Befunge.Viewer.OutputPane

def item (line : List Char) : Line × Style :=
  ([⟨Text.escapeControls line, .plain⟩], .ink Theme.text)

def frame (isFocused : Bool) : Frame := ⟨" Output ".toList, Theme.border isFocused⟩

/-- What a pane of the given height shows, if there is any output, and where it is scrolled to
then. Without output there is nothing to scroll and the offset stays. -/
def listing? (output : Transcript) (isFocused : Bool) (height offset : Nat) : Option Listing × Nat :=
  match output.lines with
  | [] => (none, offset)
  | lines =>
    let visible := visibleRows height
    let offset := clamp offset lines.length visible
    (some ⟨frame isFocused, (page offset visible lines).map item, true⟩, offset)

def drawEmpty (isFocused : Bool) (area : Area) (screen : Screen) : Screen :=
  let screen := (frame isFocused).draw (screen.fill area (.ink Theme.comment)) area
  screen.drawParagraph area.inner .left [[.of "(no output)" .plain]]

def draw (output : Transcript) (isFocused : Bool) (area : Area) (offset : Nat) (screen : Screen) :
    Screen × Nat :=
  match listing? output isFocused area.height offset with
  | (none, offset) => (drawEmpty isFocused area screen, offset)
  | (some listing, offset) => (listing.draw area screen, offset)

end Befunge.Viewer.OutputPane
