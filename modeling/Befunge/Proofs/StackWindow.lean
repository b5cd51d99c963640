import Befunge.Proofs.FieldWindow

/-! The window that the stack pane shows. Its offset is kept from one drawing to the next and
scrolled in between, while the stack and the pane change their sizes as they like. -/
namespace Befunge.Viewer

theorem page_eq_extract {α : Type} (offset visible : ℕ) (items : List α) :
    page offset visible items = items.extract offset (min (offset + visible) items.length) := by
  rw [page, List.extract_eq_take_drop, List.take_eq_take_iff, List.length_drop]
  omega

theorem clamp_eq_min (offset total visible : ℕ) :
    clamp offset total visible = min offset (total - visible) := by
  rw [clamp]
  split_ifs <;> omega

theorem clamp_of_fits {total visible : ℕ} (fits : total ≤ visible) (offset : ℕ) :
    clamp offset total visible = 0 := if_neg (Nat.not_lt.mpr fits)

theorem clamp_zero (total visible : ℕ) : clamp 0 total visible = 0 := by
  rw [clamp, Nat.zero_min, ite_self]

namespace StackPane

inductive Event where
  | render (stack : Stack) (isFocused : Bool) (area : Area) (screen : Screen)
  | up
  | down

def handle (scroll : StackScroll) : Event → StackScroll
  | .render stack isFocused area screen => (draw stack isFocused area scroll screen).2
  | .up => {scroll with offset := scrollUp scroll.offset}
  | .down => {scroll with offset := scrollDown scroll.offset}

def Event.stack? : Event → Option Stack
  | render stack _ _ _ => some stack
  | up | down => none

/-- The stack that was drawn last. -/
def latest? (events : List Event) : Option Stack := (events.filterMap Event.stack?).getLast?

/-- The row shows a value with its index, and a marker before it if the value is on top. -/
def Shows (row : Line × Style) (isTop : Bool) (index : ℕ) (value : Int64) : Prop :=
  ∃ padding, row.1.flatMap Span.text =
    (if isTop then ['▸', ' '] else [' ', ' ']) ++
    ('[' :: List.replicate padding ' ' ++ Nat.toDigits 10 index ++ [']', ' ']) ++
    (toString value.toInt).toList ++ ((hint? value).map (' ' :: ·)).getD []

section Items

variable {stack : Stack}

theorem shows_valueLine (depth index : ℕ) (value : Int64) (style : Style) :
    Shows (valueLine depth index value, style) (index + 1 == depth) index value := by
  refine ⟨(Nat.toDigits 10 depth).length - (Nat.toDigits 10 index).length, ?_⟩
  have marker : (if index + 1 == depth then "▸ " else "  ").toList =
      if index + 1 == depth then ['▸', ' '] else [' ', ' '] := by split <;> rfl
  rw [valueLine, List.flatMap_append]
  simp only [List.flatMap_cons, List.flatMap_nil, Span.of, marker, List.leftpad, List.append_nil]
  cases hint? value <;> simp

theorem filter_leftpad_toDigits (index width : ℕ) :
    ((Nat.toDigits 10 index).leftpad width ' ').filter (· != ' ') = Nat.toDigits 10 index := by
  have digits : ∀ symbol ∈ Nat.toDigits 10 index, (symbol != ' ') = true := by
    intro symbol member
    have digit := Nat.isDigit_of_mem_toDigits (by decide) (by decide) member
    apply bne_iff_ne.mpr
    rintro rfl
    cases digit
  rw [List.leftpad, List.filter_append, List.filter_replicate, List.filter_eq_self.mpr digits]
  rfl

theorem index_of_valueLine {depth first second : ℕ} {one other : Int64}
    (same : valueLine depth first one = valueLine depth second other) : first = second := by
  have labels := congrArg (fun row => row[1]?.map Span.text) same
  simp only [valueLine, List.cons_append, List.getElem?_cons_succ, List.getElem?_cons_zero,
    Option.map_some, Option.some.injEq, List.cons.injEq, true_and, List.nil_append,
    List.append_cancel_right_eq] at labels
  have digits := congrArg (List.filter (· != ' ')) labels
  rw [filter_leftpad_toDigits, filter_leftpad_toDigits] at digits
  have numbers := congrArg (Nat.ofDigitChars 10 · 0) digits
  simpa only [Nat.ofDigitChars_toDigits (by decide : 1 < 10) (by decide : 10 ≤ 10)] using numbers

theorem length_items (stack : Stack) : (items stack).length = max 1 stack.depth := by
  cases empty : stack.isEmpty with
  | true =>
    have bottom : stack.topFirst = [] := List.isEmpty_iff.mp empty
    simp [items, empty, Stack.depth, bottom]
  | false =>
    have filled : stack.topFirst ≠ [] := by simpa [Stack.isEmpty] using empty
    have depth : 0 < stack.depth := List.length_pos_iff.mpr filled
    rw [items, empty, max_eq_right depth]
    simp [Stack.depth]

theorem getElem?_items (filled : stack.isEmpty = false) (place : ℕ) :
    (items stack)[place]? = stack.topFirst[place]?.map fun value =>
      (valueLine stack.depth (stack.depth - 1 - place) value, .plain) := by
  rw [items, if_neg (by simp [filled]), List.getElem?_map, List.getElem?_zipIdx, Option.map_map,
    Nat.zero_add]
  rfl

/-- Every item has an index of its own. -/
theorem nodup_items (stack : Stack) : (items stack).Nodup := by
  cases empty : stack.isEmpty with
  | true =>
    rw [items, empty]
    exact List.nodup_singleton _
  | false =>
    apply List.nodup_iff_getElem?_ne_getElem?.mpr
    intro first second before inside same
    have depth : (items stack).length = stack.depth := by simp [items, empty, Stack.depth]
    rw [depth, Stack.depth] at inside
    rw [getElem?_items empty, getElem?_items empty,
      List.getElem?_eq_getElem (before.trans inside), List.getElem?_eq_getElem inside] at same
    have index := index_of_valueLine (congrArg Prod.fst (Option.some.inj same))
    rw [Stack.depth] at index
    omega

theorem shows_items {place : ℕ} (inside : place < stack.depth) : ∃ row value,
    (items stack)[place]? = some row ∧ stack.toList[stack.depth - 1 - place]? = some value ∧
      Shows row (place == 0) (stack.depth - 1 - place) value := by
  have filled : stack.isEmpty = false := by
    rw [Stack.isEmpty, List.isEmpty_eq_false_iff, ← List.length_pos_iff]
    exact Nat.zero_lt_of_lt inside
  have found := List.getElem?_eq_getElem inside
  refine ⟨_, stack.topFirst[place], by rw [getElem?_items filled, found]; rfl, ?_, ?_⟩
  · have mirrored : stack.depth - 1 - (stack.depth - 1 - place) = place := by omega
    rw [Stack.toList, List.getElem?_reverse (by rw [← Stack.depth]; omega), ← Stack.depth, mirrored,
      found]
  · have top : (stack.depth - 1 - place + 1 == stack.depth) = (place == 0) := by
      rw [Bool.eq_iff_iff, beq_iff_eq, beq_iff_eq]
      omega
    exact top ▸ shows_valueLine ..

end Items

section Scrolling

theorem latest?_concat (events : List Event) (event : Event) :
    latest? (events ++ [event]) = event.stack?.or (latest? events) := by
  rw [latest?, List.filterMap_append, List.getLast?_append]
  cases event <;> rfl

theorem itemCount_foldl_handle (events : List Event) :
    (events.foldl handle .start).itemCount =
      ((latest? events).map fun stack => max 1 stack.depth).getD 0 := by
  induction events using List.reverseRecOn with
  | nil => rfl
  | append_singleton events event ih =>
    rw [List.foldl_concat, latest?_concat]
    cases event with
    | render stack => exact length_items stack
    | up => exact ih
    | down => exact ih

variable {stack : Stack} {isFocused : Bool} {area : Area} {scroll : StackScroll} {screen : Screen}

theorem draw_offset : (draw stack isFocused area scroll screen).2.offset =
    clamp (if scroll.itemCount < max 1 stack.depth then 0 else scroll.offset)
      (max 1 stack.depth) (max 1 (area.height - 2)) := by
  rw [← length_items stack]
  rfl

theorem draw_offset_of_fits (fits : max 1 stack.depth ≤ max 1 (area.height - 2)) :
    (draw stack isFocused area scroll screen).2.offset = 0 := by
  rw [draw_offset, clamp_of_fits fits]

theorem draw_offset_le (long : max 1 (area.height - 2) < max 1 stack.depth) :
    (draw stack isFocused area scroll screen).2.offset ≤
      max 1 stack.depth - max 1 (area.height - 2) := by
  rw [draw_offset, clamp, if_pos long]
  exact min_le_right _ _

theorem draw_offset_of_grown {earlier : List Event} {previous : Stack}
    (latest : latest? earlier = some previous) (grown : previous.depth < stack.depth) :
    (draw stack isFocused area (earlier.foldl handle .start) screen).2.offset = 0 := by
  by_cases more : max 1 previous.depth < max 1 stack.depth
  · have fewer : (earlier.foldl handle .start).itemCount < max 1 stack.depth := by
      rw [itemCount_foldl_handle, latest]
      exact more
    rw [draw_offset, if_pos fewer, clamp_zero]
  · -- The first value of an empty stack takes the place of the note, so the count stays at one.
    exact draw_offset_of_fits (by omega)

end Scrolling

end StackPane

section Viewing

variable {σ : Type}

/-- What an event means to the stack pane. -/
def stackEvent (viewer : Viewer σ) : Event → List StackPane.Event
  | .key .up _ => if viewer.focus = .stack then [.up] else []
  | .key .down _ => if viewer.focus = .stack then [.down] else []
  | .key _ _ => []
  | .render width height =>
    [.render viewer.session.machine.stack (viewer.focus = .stack) (layout width height).stack
      (.blank width height)]
  | .tick _ => []

def stackEvents : Viewer σ → List Event → List StackPane.Event
  | _, [] => []
  | viewer, event :: events => viewer.stackEvent event ++ (viewer.handle event).stackEvents events

theorem move_stackScroll (viewer : Viewer σ) (success failure : String)
    (result : Except HistoryError (Session σ)) :
    (viewer.move success failure result).stackScroll = viewer.stackScroll := by
  cases result <;> rfl

theorem scrollFocused_stackScroll (viewer : Viewer σ) (field : FieldScroll → FieldScroll)
    (list : ℕ → ℕ) : (viewer.scrollFocused field list).stackScroll =
      if viewer.focus = .stack then
        {viewer.stackScroll with offset := list viewer.stackScroll.offset}
      else viewer.stackScroll := by
  rw [scrollFocused]
  cases viewer.focus <;> rfl

theorem handle_stackScroll (viewer : Viewer σ) (event : Event) :
    (viewer.handle event).stackScroll =
      (viewer.stackEvent event).foldl StackPane.handle viewer.stackScroll := by
  cases event with
  | key key sinceSpace =>
    cases key with
    | character symbol =>
      simp only [handle, press, pressCharacter]
      split_ifs <;> rfl
    | tab | backTab | other => rfl
    | left | right | enter | backspace => exact move_stackScroll viewer.stop _ _ _
    | up =>
      rw [handle, press, scrollFocused_stackScroll, stackEvent]
      split_ifs <;> rfl
    | down =>
      rw [handle, press, scrollFocused_stackScroll, stackEvent]
      split_ifs <;> rfl
  | render width height => rfl
  | tick sinceStep =>
    simp only [handle, tick]
    split_ifs
    · split <;> rfl
    · rfl

theorem after_stackScroll (viewer : Viewer σ) (events : List Event) :
    (viewer.after events).stackScroll =
      (viewer.stackEvents events).foldl StackPane.handle viewer.stackScroll := by
  induction events generalizing viewer with
  | nil => rfl
  | cons event events ih =>
    rw [stackEvents, List.foldl_append, ← handle_stackScroll, ← ih]
    rfl

end Viewing

namespace StackPane

/-- After any scrolling and earlier drawings the stack pane lists a full page of the items or all of
them, one after another and each one once. A stack that has grown is shown from its top. The pane of
a viewer is scrolled by the arrow keys while it has the focus, and by nothing else. -/
theorem pane_shows_page {σ : Type} (earlier : List Event) (stack : Stack) (isFocused : Bool)
    (area : Area) (screen : Screen) :
    let scroll := earlier.foldl handle .start
    let handed := (listing stack isFocused area.height scroll).1
    let drawn := draw stack isFocused area scroll screen
    let offset := drawn.2.offset
    let total := max 1 stack.depth
    let visible := max 1 (area.height - 2)
    let rows := (items stack).extract offset (min (offset + visible) total)
    (if visible < total then offset ≤ total - visible else offset = 0) ∧
    handed = ⟨frame stack isFocused, rows, false⟩ ∧ drawn.1 = handed.draw area screen ∧
    rows.length = min (offset + visible) total - offset ∧ rows.Nodup ∧
    (stack.depth = 0 → rows.map (fun row => row.1.flatMap Span.text) = ["(empty)".toList]) ∧
    (∀ place < stack.depth, ∃ row value, (items stack)[place]? = some row ∧
      stack.toList[stack.depth - 1 - place]? = some value ∧
      Shows row (place == 0) (stack.depth - 1 - place) value) ∧
    (∀ previous, latest? earlier = some previous → previous.depth < stack.depth →
      offset = 0 ∧ rows.head? = (items stack).head?) ∧
    ∀ (session : Session σ) (events : List Viewer.Event),
      ((Viewer.new session).after events).stackScroll =
        ((Viewer.new session).stackEvents events).foldl handle .start := by
  intro scroll handed drawn offset total visible rows
  have count : (items stack).length = total := length_items stack
  have cut : rows = ((items stack).drop offset).take (min (offset + visible) total - offset) :=
    List.extract_eq_take_drop
  refine ⟨?_, ?_, rfl, ?_, ?_, ?_, fun _ => shows_items, ?_,
    fun session => after_stackScroll (.new session)⟩
  · split_ifs with long
    · exact draw_offset_le long
    · exact draw_offset_of_fits (Nat.le_of_not_lt long)
  · have page : rows = page offset visible (items stack) := by rw [page_eq_extract, count]
    rw [page]
    rfl
  · rw [cut, List.length_take, List.length_drop, count, min_eq_left]
    exact Nat.sub_le_sub_right (min_le_right _ _) _
  · rw [cut]
    exact (nodup_items stack).sublist ((List.take_sublist ..).trans (List.drop_sublist ..))
  · intro depth
    have single : total = 1 := by simp [total, depth]
    have start : offset = 0 := draw_offset_of_fits (by omega)
    have empty : stack.isEmpty = true := List.isEmpty_iff.mpr (List.length_eq_zero_iff.mp depth)
    have note : items stack = [([.of "(empty)" .plain], .ink Theme.comment)] := if_pos empty
    have whole : min (0 + visible) 1 - 0 = 1 := by omega
    rw [cut, start, single, whole, note]
    rfl
  · intro previous latest grown
    have start : offset = 0 := draw_offset_of_grown latest grown
    refine ⟨start, ?_⟩
    rw [cut, start, List.head?_take, if_neg (by omega), List.drop_zero]

end StackPane

end Befunge.Viewer
