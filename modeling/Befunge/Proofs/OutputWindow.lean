import Befunge.Proofs.OutputText
import Befunge.Proofs.Panes
import Befunge.Proofs.StackWindow

/-! The window that the output pane shows. It stays at the end of the output when the viewer moves
through the record, and goes up and down by single lines. -/
namespace Befunge

namespace Text

def Ascii (text : List Char) : Prop := ∀ symbol ∈ text, symbol.toNat < 0x80

instance : DecidablePred Ascii := fun text => List.decidableBAll _ text

theorem Ascii.plain_escapeControls {text : List Char} (ascii : Ascii text) :
    Plain (escapeControls text) := by
  intro symbol member
  obtain ⟨given, inText, shown⟩ := List.mem_flatMap.mp member
  split_ifs at shown with control
  · exact plain_escape given symbol shown
  · obtain rfl := List.mem_singleton.mp shown
    have below := ascii symbol inText
    exact ⟨Bool.eq_false_iff.mpr control, if_neg (by omega)⟩

end Text

namespace Screen

section Rows

variable (style : Style) (y : ℕ)

theorem drawText_cons {symbol : Char} (narrow : Text.columns symbol = 1) (screen : Screen)
    (x room : ℕ) (rest : List Char) :
    drawText style y screen x (room + 1) (symbol :: rest) =
      drawText style y (screen.draw x y ⟨symbol, style⟩) (x + 1) room rest := by
  rw [drawText, narrow, if_neg (by omega)]
  rfl

theorem symbol?_drawText {text : List Char} (plain : Text.Plain text) (screen : Screen)
    (x room column : ℕ) :
    (drawText style y screen x room text).symbol? (x + column) y =
      (screen.symbol? (x + column) y).map fun under => (text.take room)[column]?.getD under := by
  induction text generalizing screen x room column with
  | nil => simp [drawText]
  | cons symbol rest ih =>
    obtain ⟨⟨_, narrow⟩, plain⟩ := List.forall_mem_cons.mp plain
    cases room with
    | zero => simp [drawText, narrow]
    | succ room =>
      rw [drawText_cons style y narrow, List.take_succ_cons]
      cases column with
      | zero =>
        -- The rest of the text comes further to the right.
        have later (screen : Screen) : Drawn (fun place _ _ => x + 1 ≤ place) screen
            (drawText style y screen (x + 1) room rest) :=
          drawn_drawText fun _ _ _ right _ => right
        rw [(later _).unchanged fun _ => by omega, symbol?_draw]
        simp
      | succ column =>
        have next : x + (column + 1) = x + 1 + column := by omega
        rw [next, ih plain, symbol?_draw, if_neg (by omega)]
        rfl

end Rows

def drawRow (area : Area) (screen : Screen) (item : (Line × Style) × ℕ) : Screen :=
  let y := area.y + item.2
  drawSpans y (screen.fill ⟨area.x, y, area.width, 1⟩ item.1.2) area.x area.width item.1.1

section Items

variable {area : Area}

theorem symbol?_drawRow_of_ne (screen : Screen) (item : (Line × Style) × ℕ) {x y : ℕ}
    (other : y ≠ area.y + item.2) :
    (drawRow area screen item).symbol? x y = screen.symbol? x y := by
  have drawn : Drawn (fun _ y _ => y = area.y + item.2) screen (drawRow area screen item) :=
    (drawn_fill _ _).trans (drawn_drawSpans (fun _ _ _ => rfl) fun _ _ _ _ _ _ _ => rfl)
  exact drawn.unchanged fun _ => other

theorem symbol?_drawRows_of_lt (items : List (Line × Style)) {start x y : ℕ}
    (above : y < area.y + start) (screen : Screen) :
    ((items.zipIdx start).foldl (drawRow area) screen).symbol? x y = screen.symbol? x y := by
  induction items generalizing start screen with
  | nil => rfl
  | cons item items ih =>
    rw [List.zipIdx_cons, List.foldl_cons, ih (Nat.lt_succ_of_lt above),
      symbol?_drawRow_of_ne _ _ (Nat.ne_of_lt above)]

variable {column : ℕ} (inside : column < area.width) (style rowStyle : Style)

include inside

theorem symbol?_drawRow {text : List Char} (plain : Text.Plain text) (screen : Screen) (row : ℕ) :
    (drawRow area screen (([⟨text, style⟩], rowStyle), row)).symbol? (area.x + column)
        (area.y + row) =
      (screen.symbol? (area.x + column) (area.y + row)).map fun under => text[column]?.getD under := by
  have room : area.width ≠ 0 := Nat.ne_zero_of_lt inside
  simp only [drawRow, drawSpans, if_neg room]
  rw [symbol?_drawText _ _ plain, symbol?_fill, List.getElem?_take_of_lt inside]

theorem symbol?_drawRows (texts : List (List Char)) (start row : ℕ)
    (plain : ∀ text, texts[row]? = some text → Text.Plain text) (screen : Screen) :
    (((texts.map fun text => ([⟨text, style⟩], rowStyle)).zipIdx start).foldl (drawRow area)
        screen).symbol? (area.x + column) (area.y + (start + row)) =
      (screen.symbol? (area.x + column) (area.y + (start + row))).map fun under =>
        (texts[row]?.bind (·[column]?)).getD under := by
  induction texts generalizing start row screen with
  | nil => simp
  | cons text texts ih =>
    rw [List.map_cons, List.zipIdx_cons, List.foldl_cons]
    cases row with
    | zero =>
      rw [symbol?_drawRows_of_lt _ (by omega), Nat.add_zero,
        symbol?_drawRow inside _ _ (plain text rfl)]
      rfl
    | succ row =>
      have next : start + (row + 1) = start + 1 + row := by omega
      rw [next, ih _ _ plain, symbol?_drawRow_of_ne _ _ (by simp only; omega)]
      rfl

/-- A row of a list shows its text if all of it is plain, whatever the other rows hold. -/
theorem symbol?_drawItems (texts : List (List Char)) {row : ℕ} (visible : row < area.height)
    (plain : ∀ text, texts[row]? = some text → Text.Plain text) (screen : Screen) :
    (screen.drawItems area (texts.map fun text => ([⟨text, style⟩], rowStyle))).symbol?
        (area.x + column) (area.y + row) =
      (screen.symbol? (area.x + column) (area.y + row)).map fun under =>
        (texts[row]?.bind (·[column]?)).getD under := by
  have kept : (texts.take area.height)[row]? = texts[row]? := List.getElem?_take_of_lt visible
  have rows := symbol?_drawRows inside style rowStyle (texts.take area.height) 0 row
    (by rwa [kept]) screen
  rw [Nat.zero_add, kept, List.map_take] at rows
  exact rows

end Items

end Screen

section Length

def Machine.feeds (machine : Machine) : ℕ := machine.output.text.toList.count '\n'

theorem Machine.execute_feeds (answer : Heading) (machine : Machine) (instruction : Instruction) :
    (machine.execute answer instruction).feeds ≤ machine.feeds + 1 := by
  cases instruction with
  | outputInteger =>
    have unbroken : '\n' ∉ (toString machine.stack.pop.1.toInt).toList := fun feed =>
      ((Text.plain_integer _).narrow feed).1 rfl
    simp only [execute, feeds, Transcript.print, String.toList_append, List.count_append,
      List.count_eq_zero.mpr unbroken]
    exact Nat.le_succ _
  | outputCharacter =>
    simp only [execute, feeds, Transcript.printCharacter, String.toList_push, List.count_append]
    exact Nat.add_le_add_left List.count_le_length _
  | put =>
    simp only [execute, put_eq]
    exact Nat.le_succ _
  | _ => exact Nat.le_succ _

theorem Machine.cycle_feeds (answer : Heading) (machine : Machine) :
    (machine.cycle answer).feeds ≤ machine.feeds + 1 := by
  have kept : (machine.cycle answer).feeds = (machine.dispatch answer).feeds := rfl
  rw [kept, dispatch]
  split_ifs
  · exact Nat.le_succ _
  · exact execute_feeds ..

theorem Machine.step_feeds {machine : Machine} (limit : ℕ) (answer : Heading)
    (few : machine.feeds ≤ machine.steps) :
    (machine.step limit answer).feeds ≤ (machine.step limit answer).steps := by
  cases decided : machine.verdict limit with
  | some halt =>
    rw [step_of_verdict decided]
    exact few
  | none =>
    rw [step_of_running decided, cycle_steps]
    exact (cycle_feeds answer machine).trans (Nat.succ_le_succ few)

/-- Each line feed takes a cycle, so that the step limit bounds the number of lines. -/
theorem Session.length_lines_le {σ : Type} [DirectionSource σ] (source : String) (config : Config)
    (directions : σ) (commands : List Command) :
    ((new source config directions).after commands).machine.output.lines.length ≤
      config.stepLimit + 1 := by
  obtain ⟨⟨few, within⟩, _⟩ := new_after_upholds
    (P := fun machine => machine.feeds ≤ machine.steps ∧ machine.steps ≤ config.stepLimit)
    source config directions commands ⟨Nat.le_refl 0, Nat.zero_le _⟩ (fun _ _ holds => holds)
    fun machine answer holds =>
      ⟨Machine.step_feeds _ answer holds.1, Machine.step_steps_le answer holds.2⟩
  exact (Text.length_outputLines_le _).trans (Nat.succ_le_succ (few.trans within))

end Length

namespace Viewer

namespace OutputPane

/-- The row holds a line of output. All its control characters have been made visible. -/
def Holds (row : Line × Style) (line : List Char) : Prop :=
  row.1.flatMap Span.text = Text.escapeControls line ∧
    (Text.Legible line → row.1.flatMap Span.text = line)

/-- Each line is seen on a row of its own, cut off where the area ends. That is said only of lines
in ASCII, since other symbols may take two cells or none. -/
def Shows (screen : Screen) (area : Area) (lines : List (List Char)) : Prop :=
  ∀ row < area.height, (∀ line, lines[row]? = some line → Text.Ascii line) →
    ∀ column < area.width, screen.symbol? (area.x + column) (area.y + row) =
      some ((lines[row]?.bind fun line => (Text.escapeControls line)[column]?).getD ' ')

theorem holds_item (line : List Char) : Holds (item line) line := by
  have text : (item line).1.flatMap Span.text = Text.escapeControls line := List.append_nil _
  exact ⟨text, fun legible => text.trans (Text.escapeControls_of_legible legible)⟩

section Listings

variable {output : Transcript} (isFocused : Bool) (height offset : ℕ)

theorem listing?_of_silent (silent : output.lines = []) :
    listing? output isFocused height offset = (none, offset) := by
  rw [listing?, silent]

theorem listing?_of_filled (filled : output.lines ≠ []) :
    listing? output isFocused height offset =
      let first := min offset (output.lines.length - visibleRows height)
      (some ⟨frame isFocused, (page first (visibleRows height) output.lines).map item, true⟩,
        first) := by
  rw [listing?]
  split
  · contradiction
  · simp only [clamp_eq_min]

end Listings

theorem shows_of_onScreen {frame : Frame} {lines : List (List Char)} {area : Area} {screen : Screen}
    (onScreen : Listing.OnScreen ⟨frame, lines.map item, true⟩ area screen) :
    Shows screen area.inner.indented lines := by
  intro row visible ascii column inside
  obtain ⟨under, blank, seen⟩ := onScreen
  have here := area.inner.indented.holds_add inside visible
  have items : lines.map item =
      (lines.map Text.escapeControls).map fun text => ([⟨text, .plain⟩], .ink Theme.text) := by
    rw [List.map_map]
    rfl
  have plain (text : List Char) (found : (lines.map Text.escapeControls)[row]? = some text) :
      Text.Plain text := by
    rw [List.getElem?_map] at found
    obtain ⟨line, given, rfl⟩ := Option.map_eq_some_iff.mp found
    exact (ascii line given).plain_escapeControls
  have draws : Listing.draw ⟨frame, lines.map item, true⟩ area under =
      (frame.draw under area).drawItems area.inner.indented (lines.map item) := rfl
  rw [seen _ _ here.of_indented.of_inner, draws, items,
    Screen.symbol?_drawItems inside _ _ _ visible plain,
    Screen.symbol?_frame _ _ here.of_indented, blank _ _ here.of_indented.of_inner,
    List.getElem?_map, Option.bind_map]
  rfl

end OutputPane

section Drawing

variable {σ : Type} (viewer : Viewer σ) (width height : ℕ)

def outputListing? : Option Listing :=
  (OutputPane.listing? viewer.session.machine.output (viewer.focus = .output)
    (layout width height).output.height viewer.outputScroll).1

/-- As many lines as the output pane has rows, from the given one on. -/
def outputPage (lines : List (List Char)) (first : ℕ) : List (List Char) :=
  lines.extract first (min (first + max 1 ((layout width height).output.height - 2)) lines.length)

/-- A drawing lists the page of the output that starts with the given line, and nothing else is
seen in the output pane. -/
def ShowsFrom (lines : List (List Char)) (first : ℕ) : Prop :=
  ∃ listing, viewer.outputListing? width height = some listing ∧
    List.Forall₂ OutputPane.Holds listing.rows (outputPage width height lines first) ∧
    listing.OnScreen (layout width height).output (viewer.draw width height).1 ∧
    OutputPane.Shows (viewer.draw width height).1 (layout width height).output.inner.indented
      (outputPage width height lines first)

theorem draw_of_silent (silent : viewer.session.machine.output.lines = []) :
    (viewer.draw width height).2.outputScroll = viewer.outputScroll := by
  have nothing (screen : Screen) : (OutputPane.draw viewer.session.machine.output
      (viewer.focus = .output) (layout width height).output viewer.outputScroll screen).2 =
      viewer.outputScroll := by
    rw [OutputPane.draw, OutputPane.listing?_of_silent _ _ _ silent]
  exact nothing _

theorem draw_of_filled {lines : List (List Char)} {first : ℕ}
    (printed : viewer.session.machine.output.lines = lines) (filled : lines ≠ [])
    (start : min viewer.outputScroll
      (lines.length - max 1 ((layout width height).output.height - 2)) = first) :
    (viewer.draw width height).2.outputScroll = first ∧
      viewer.ShowsFrom width height lines first := by
  subst printed
  let shown := outputPage width height viewer.session.machine.output.lines first
  let listing : Listing :=
    ⟨OutputPane.frame (viewer.focus = .output), shown.map OutputPane.item, true⟩
  have found : OutputPane.listing? viewer.session.machine.output (viewer.focus = .output)
      (layout width height).output.height viewer.outputScroll = (some listing, first) := by
    rw [OutputPane.listing?_of_filled _ _ _ filled]
    simp only [visibleRows, start, page_eq_extract]
    rfl
  have drawn (screen : Screen) : OutputPane.draw viewer.session.machine.output
      (viewer.focus = .output) (layout width height).output viewer.outputScroll screen =
      (listing.draw (layout width height).output screen, first) := by
    rw [OutputPane.draw, found]
  have onScreen : listing.OnScreen (layout width height).output (viewer.draw width height).1 := by
    obtain ⟨field, seen⟩ := viewer.draw_output width height
    refine ⟨field, fun x y inside => (seen x y inside).1, fun x y inside => ?_⟩
    rw [(seen x y inside).2, drawn]
  have rows : List.Forall₂ OutputPane.Holds listing.rows shown :=
    List.forall₂_map_left_iff.mpr (List.forall₂_same.mpr fun line _ => OutputPane.holds_item line)
  exact ⟨congrArg Prod.snd (drawn _), listing, congrArg Prod.fst found, rows, onScreen,
    OutputPane.shows_of_onScreen onScreen⟩

end Drawing

section Keys

variable {σ : Type} {viewer : Viewer σ}

/-- The move that a key starts with, if it is one of those that move through the record. -/
def Key.move? (session : Session σ) : Key → Option (Except HistoryError (Session σ))
  | .left => some session.stepBackward
  | .right => some session.stepForward
  | .enter => some session.jumpToEnd
  | .backspace => some session.rewind
  | .character symbol =>
    if '1' ≤ symbol ∧ symbol ≤ '9' then some session.stepForward else none
  | .tab | .backTab | .up | .down | .other => none

def Navigates (viewer : Viewer σ) (key : Key) : Prop :=
  ∃ next, key.move? viewer.session = some (.ok next)

theorem Navigates.outputScroll {key : Key} (navigates : viewer.Navigates key) (sinceSpace : ℕ) :
    (viewer.press key sinceSpace).outputScroll = lastOffset := by
  obtain ⟨next, moved⟩ := navigates
  cases key with
  | left | right =>
    have moved := Option.some.inj moved
    simp only [press, moved]
    rfl
  | enter | backspace => rfl
  | character symbol =>
    simp only [Key.move?] at moved
    split_ifs at moved with digit
    rw [press, pressCharacter, if_neg (stays_of_digit digit), if_pos digit]
    rfl
  | tab | backTab | up | down | other => cases moved

def Event.turns : Event → Bool
  | .key .tab _ | .key .backTab _ => true
  | _ => false

theorem after_turns (viewer : Viewer σ) {turns : List Event}
    (turning : ∀ turn ∈ turns, turn.turns = true) :
    (viewer.after turns).session = viewer.session ∧
      (viewer.after turns).outputScroll = viewer.outputScroll := by
  induction turns generalizing viewer with
  | nil => exact ⟨rfl, rfl⟩
  | cons turn turns ih =>
    obtain ⟨first, turning⟩ := List.forall_mem_cons.mp turning
    have kept : (viewer.handle turn).session = viewer.session ∧
        (viewer.handle turn).outputScroll = viewer.outputScroll := by
      unfold Event.turns at first
      split at first
      · exact ⟨rfl, rfl⟩
      · exact ⟨rfl, rfl⟩
      · cases first
    obtain ⟨session, offset⟩ := ih (viewer.handle turn) turning
    exact ⟨session.trans kept.1, offset.trans kept.2⟩

theorem after_up (viewer : Viewer σ) (focused : viewer.focus = .output) (times : List ℕ) :
    (viewer.after (times.map (Event.key .up))).session = viewer.session ∧
      (viewer.after (times.map (Event.key .up))).outputScroll =
        viewer.outputScroll - times.length := by
  induction times generalizing viewer with
  | nil => exact ⟨rfl, rfl⟩
  | cons time times ih =>
    have first : viewer.handle (.key .up time) =
        {viewer with outputScroll := viewer.outputScroll - 1} := by
      simp only [handle, press, scrollFocused, focused]
      rfl
    obtain ⟨session, offset⟩ := ih {viewer with outputScroll := viewer.outputScroll - 1} focused
    rw [List.map_cons, after, List.foldl_cons, first]
    refine ⟨session, offset.trans ?_⟩
    simp only [List.length_cons]
    omega

end Keys

section Sessions

variable {σ : Type} [DirectionSource σ]

omit [DirectionSource σ] in
theorem move_session (viewer : Viewer σ) (success failure : String)
    (result : Except HistoryError (Session σ)) :
    (viewer.move success failure result).session = (viewer.session.navigated result).2 := by
  cases result <;> rfl

theorem forward_session (count : ℕ) (session : Session σ) : ∃ commands,
    (forward count session).2 = session.after commands := by
  induction count generalizing session with
  | zero => exact ⟨[], rfl⟩
  | succ count ih =>
    cases stepped : session.stepForward with
    | error error => exact ⟨[], by rw [forward, stepped]; rfl⟩
    | ok next =>
      obtain ⟨commands, reached⟩ := ih next
      refine ⟨.stepForward :: commands, ?_⟩
      rw [Session.after_cons, Session.perform, stepped, forward, stepped]
      exact reached

/-- What a viewer does to its session could be done by commands. -/
theorem handle_session (viewer : Viewer σ) (event : Event) : ∃ commands,
    (viewer.handle event).session = viewer.session.after commands := by
  cases event with
  | render width height => exact ⟨[], rfl⟩
  | tick sinceStep =>
    simp only [handle, tick]
    split_ifs
    · cases stepped : viewer.session.stepForward with
      | ok next => exact ⟨[.stepForward], by rw [Session.after_cons, Session.perform, stepped]; rfl⟩
      | error error => exact ⟨[], rfl⟩
    · exact ⟨[], rfl⟩
  | key key sinceSpace =>
    cases key with
    | character symbol =>
      simp only [handle, press, pressCharacter]
      split_ifs
      · exact ⟨[], rfl⟩
      · exact forward_session _ viewer.session
      · exact ⟨[], rfl⟩
      · exact ⟨[], rfl⟩
    | left => exact ⟨[.stepBackward], move_session viewer.stop _ _ _⟩
    | right => exact ⟨[.stepForward], move_session viewer.stop _ _ _⟩
    | enter => exact ⟨[.jumpToEnd], move_session viewer.stop _ _ _⟩
    | backspace => exact ⟨[.rewind], move_session viewer.stop _ _ _⟩
    | up | down =>
      refine ⟨[], ?_⟩
      simp only [handle, press, scrollFocused]
      split <;> rfl
    | tab | backTab | other => exact ⟨[], rfl⟩

theorem after_session (viewer : Viewer σ) (events : List Event) : ∃ commands,
    (viewer.after events).session = viewer.session.after commands := by
  induction events generalizing viewer with
  | nil => exact ⟨[], rfl⟩
  | cons event events ih =>
    obtain ⟨first, handled⟩ := viewer.handle_session event
    obtain ⟨rest, reached⟩ := ih (viewer.handle event)
    refine ⟨first ++ rest, ?_⟩
    rw [Session.after, List.foldl_append]
    rw [handled] at reached
    exact reached

theorem length_lines_le (source : String) (config : Config) (directions : σ)
    (commands : List Command) (events : List Event) :
    let viewer := (new ((Session.new source config directions).after commands)).after events
    viewer.session.machine.output.lines.length ≤ config.stepLimit + 1 := by
  intro viewer
  obtain ⟨more, reached⟩ :=
    (new ((Session.new source config directions).after commands)).after_session events
  have joined : viewer.session = (Session.new source config directions).after (commands ++ more) := by
    rw [Session.after, List.foldl_append]
    exact reached
  rw [joined]
  exact Session.length_lines_le source config directions (commands ++ more)

/-- The output pane shows one page of the output and remembers where it starts, and without output
it remembers what it did. A move through the record turns to the last page, and from there each
press of the up key goes back by one line. -/
theorem output_follows_end (source : String) (config : Config)
    (limited : config.stepLimit < UInt64.size) (directions : σ) (commands : List Command)
    (events : List Event) (width height : ℕ) :
    let viewer := (new ((Session.new source config directions).after commands)).after events
    let visible := max 1 ((layout width height).output.height - 2)
    (let lines := viewer.session.machine.output.lines
      let drawn := viewer.draw width height
      let first := min viewer.outputScroll (lines.length - visible)
      (0 < lines.length →
        drawn.2.outputScroll = first ∧ viewer.ShowsFrom width height lines first) ∧
      (lines.length = 0 → drawn.2.outputScroll = viewer.outputScroll)) ∧
    ∀ key sinceSpace, viewer.Navigates key →
      let moved := viewer.press key sinceSpace
      let lines := moved.session.machine.output.lines
      let drawn := moved.draw width height
      let last := lines.length - visible
      0 < lines.length →
        (drawn.2.outputScroll = last ∧ moved.ShowsFrom width height lines last) ∧
        ∀ (turns : List Event) (times : List ℕ), (∀ turn ∈ turns, turn.turns = true) →
          let focused := drawn.2.after turns
          focused.focus = .output →
            let scrolled := focused.after (times.map (Event.key .up))
            (scrolled.draw width height).2.outputScroll = last - times.length ∧
              scrolled.ShowsFrom width height lines (last - times.length) := by
  intro viewer visible
  refine ⟨⟨fun some => viewer.draw_of_filled width height rfl (List.length_pos_iff.mp some) rfl,
    fun none => viewer.draw_of_silent width height (List.length_eq_zero_iff.mp none)⟩, ?_⟩
  intro key sinceSpace navigates moved lines drawn last some
  have filled : lines ≠ [] := List.length_pos_iff.mp some
  -- The step limit is a word, so that the largest offset is not before the last page.
  have reached : last ≤ moved.outputScroll := by
    have bound := length_lines_le source config directions commands
      (events ++ [.key key sinceSpace])
    rw [after, List.foldl_concat] at bound
    have all : lines.length ≤ config.stepLimit + 1 := bound
    have one : 1 ≤ visible := le_max_left _ _
    rw [navigates.outputScroll, lastOffset]
    omega
  have atEnd := moved.draw_of_filled width height rfl filled (Nat.min_eq_right reached)
  refine ⟨atEnd, ?_⟩
  intro turns times turning focused isFocused scrolled
  obtain ⟨turned, kept⟩ := drawn.2.after_turns turning
  obtain ⟨session, offset⟩ := focused.after_up isFocused times
  apply draw_of_filled _ width height _ filled
  · rw [offset, kept, atEnd.1]
    exact Nat.min_eq_left (Nat.sub_le last times.length)
  · rw [session, turned]
    rfl

/-- Three lines in a pane that shows one of them. -/
theorem output_follows_end_of_lines :
    let viewer := (new ((Session.new "1.55+,2.55+,3.@" ⟨100, true, 100000⟩ (Script.ofList [])).after
      [.run, .rewind])).after [.render 20 11]
    let moved := (viewer.press .enter 0).draw 20 11
    let scrolled := ((moved.2.after [.key .tab 0]).after [.key .up 0]).draw 20 11
    viewer.Navigates .enter ∧ moved.2.outputScroll = 2 ∧ moved.1.symbol? 2 8 = some '3' ∧
      scrolled.2.outputScroll = 1 ∧ scrolled.1.symbol? 2 8 = some '2' := by
  have follows := output_follows_end "1.55+,2.55+,3.@" ⟨100, true, 100000⟩ (by decide)
    (Script.ofList []) [.run, .rewind] [.render 20 11] 20 11
  intro viewer moved scrolled
  extract_lets visible at follows
  have navigates : viewer.Navigates .enter := by
    have succeeds : viewer.session.jumpToEnd.toBool = true := by decide +kernel
    clear_value viewer
    cases jumped : viewer.session.jumpToEnd with
    | ok next => exact ⟨next, congrArg some jumped⟩
    | error error => rw [jumped] at succeeds; cases succeeds
  have printed : (viewer.press .enter 0).session.machine.output.lines = [['1'], ['2'], ['3']] := by
    decide +kernel
  have turned : (moved.2.after [.key .tab 0]).focus = .output := by decide +kernel
  clear_value viewer
  obtain ⟨⟨offset, _, _, _, _, shown⟩, back⟩ :=
    follows.2 .enter 0 navigates (by rw [printed]; decide)
  obtain ⟨less, _, _, _, _, above⟩ := back [.key .tab 0] [0] (by decide) turned
  have pane : (layout 20 11).output = ⟨0, 7, 14, 3⟩ := rfl
  have page (first : ℕ) : outputPage 20 11 [['1'], ['2'], ['3']] first =
      [['1'], ['2'], ['3']].extract first (min (first + 1) 3) := rfl
  rw [printed, page, pane] at shown above
  rw [printed] at offset less
  rw [List.map_cons, List.map_nil] at less above
  simp only [scrolled, moved]
  refine ⟨navigates, offset, shown 0 (by decide) ?_ 0 (by decide), less,
    above 0 (by decide) ?_ 0 (by decide)⟩
  · rintro line ⟨⟩
    decide
  · rintro line ⟨⟩
    decide

end Sessions

end Viewer

end Befunge
