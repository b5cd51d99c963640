import Befunge.Proofs.PrintLoop

/-! Program texts and the playfields built from them. A program can be written down in many ways,
which differ in how its lines end, and all of them build the same playfield, cell by cell what
stands in the lines. -/
namespace Befunge

namespace Text

inductive Ending where
  | feed
  | returnFeed
  deriving DecidableEq

def Ending.text : Ending → List Char
  | feed => ['\n']
  | returnFeed => ['\r', '\n']

/-- The text consists of the lines, each with an ending of its own. The last one may go without if
there is anything in it. -/
inductive Writes : List (List Char) → List Char → Prop
  | nothing : Writes [] []
  | unended (line : List Char) (filled : line ≠ []) : Writes [line] line
  | ended {lines : List (List Char)} {text : List Char} (line : List Char) (ending : Ending)
      (rest : Writes lines text) : Writes (line :: lines) (line ++ ending.text ++ text)

/-- No part of the line could be taken for its ending. -/
def Proper (line : List Char) : Prop := '\n' ∉ line ∧ line.getLast? ≠ some '\r'

instance : DecidablePred Proper := fun _ => inferInstanceAs (Decidable (_ ∧ _))

variable {lines : List (List Char)} {line text : List Char}

theorem splitBreaks_append_feed (unbroken : '\n' ∉ line) (text : List Char) :
    splitBreaks (line ++ '\n' :: text) = (line :: (splitBreaks text).1, (splitBreaks text).2) := by
  induction line with
  | nil => rfl
  | cons symbol line ih =>
    obtain ⟨other, unbroken⟩ := List.ne_and_not_mem_of_not_mem_cons unbroken
    change consSplit symbol (splitBreaks (line ++ '\n' :: text)) = _
    rw [ih unbroken, consSplit, if_neg other.symm]

theorem sourceLines_append_feed (unbroken : '\n' ∉ line) (text : List Char) :
    sourceLines (line ++ '\n' :: text) = dropReturn line :: sourceLines text := by
  rw [sourceLines, splitBreaks_append_feed unbroken]
  rfl

theorem Proper.dropReturn (proper : Proper line) : dropReturn line = line := if_neg proper.2

theorem dropReturn_concat (line : List Char) : dropReturn (line ++ ['\r']) = line := by
  rw [Text.dropReturn, List.getLast?_concat, if_pos rfl, List.dropLast_concat]

theorem Proper.sourceLines_append (proper : Proper line) (ending : Ending) (text : List Char) :
    sourceLines (line ++ ending.text ++ text) = line :: sourceLines text := by
  cases ending with
  | feed =>
    rw [Ending.text, List.append_assoc, List.singleton_append, sourceLines_append_feed proper.1,
      proper.dropReturn]
  | returnFeed =>
    -- The return counts as part of the line at first and is dropped when the line is complete.
    have unbroken : '\n' ∉ line ++ ['\r'] := by simpa using proper.1
    have parts : line ++ Ending.returnFeed.text ++ text = line ++ ['\r'] ++ '\n' :: text := by
      simp [Ending.text]
    rw [parts, sourceLines_append_feed unbroken, dropReturn_concat]

theorem Writes.sourceLines (writes : Writes lines text) (proper : ∀ line ∈ lines, Proper line) :
    sourceLines text = lines := by
  induction writes with
  | nothing => rfl
  | unended line filled =>
    exact sourceLines_of_unbroken (proper line List.mem_cons_self).1 filled
  | ended line ending rest ih =>
    obtain ⟨head, proper⟩ := List.forall_mem_cons.mp proper
    rw [head.sourceLines_append, ih proper]

theorem writes_feeds (lines : List (List Char)) : Writes lines (lines.flatMap (· ++ ['\n'])) := by
  induction lines with
  | nil => exact .nothing
  | cons line lines ih => exact .ended line .feed ih

theorem join_splitBreaks (text : List Char) :
    (splitBreaks text).1.flatMap (· ++ ['\n']) ++ (splitBreaks text).2 = text := by
  induction text with
  | nil => rfl
  | cons symbol text ih =>
    change (consSplit symbol (splitBreaks text)).1.flatMap (· ++ ['\n']) ++
      (consSplit symbol (splitBreaks text)).2 = _
    generalize splitBreaks text = split at ih ⊢
    obtain ⟨ended, last⟩ := split
    unfold consSplit
    split_ifs with feed
    · rw [feed]
      exact congrArg ('\n' :: ·) ih
    · cases ended <;> exact congrArg (symbol :: ·) ih

theorem unbroken_splitBreaks (text : List Char) :
    (∀ line ∈ (splitBreaks text).1, '\n' ∉ line) ∧ '\n' ∉ (splitBreaks text).2 := by
  induction text with
  | nil => simp [splitBreaks]
  | cons symbol text ih =>
    change (∀ line ∈ (consSplit symbol (splitBreaks text)).1, '\n' ∉ line) ∧
      '\n' ∉ (consSplit symbol (splitBreaks text)).2
    generalize splitBreaks text = split at ih ⊢
    obtain ⟨ended, last⟩ := split
    unfold consSplit
    split_ifs with feed
    · exact ⟨List.forall_mem_cons.mpr ⟨List.not_mem_nil, ih.1⟩, ih.2⟩
    · have grown {line : List Char} (unbroken : '\n' ∉ line) : '\n' ∉ symbol :: line :=
        List.not_mem_cons_of_ne_of_not_mem (Ne.symm feed) unbroken
      cases ended with
      | nil => exact ⟨ih.1, grown ih.2⟩
      | cons head ended =>
        obtain ⟨unbroken, rest⟩ := List.forall_mem_cons.mp ih.1
        exact ⟨List.forall_mem_cons.mpr ⟨grown unbroken, rest⟩, ih.2⟩

theorem mem_unfinished {text : List Char} (member : line ∈ unfinished text) : line = text := by
  cases text with
  | nil => cases member
  | cons => exact List.mem_singleton.mp member

/-- A line of a program holds nothing but what stands in its text between line feeds. -/
theorem mem_of_mem_sourceLines (member : line ∈ sourceLines text) {symbol : Char}
    (inLine : symbol ∈ line) : symbol ∈ text ∧ symbol ≠ '\n' := by
  obtain ⟨ended, last⟩ := unbroken_splitBreaks text
  have whole := join_splitBreaks text
  rw [Text.sourceLines] at member
  rcases List.mem_append.mp member with complete | incomplete
  · obtain ⟨raw, found, rfl⟩ := List.mem_map.mp complete
    have inRaw : symbol ∈ raw := by
      unfold dropReturn at inLine
      split_ifs at inLine
      · exact List.mem_of_mem_dropLast inLine
      · exact inLine
    refine ⟨?_, ne_of_mem_of_not_mem inRaw (ended raw found)⟩
    rw [← whole]
    exact List.mem_append_left _ (List.mem_flatMap.mpr ⟨raw, found, List.mem_append_left _ inRaw⟩)
  · obtain rfl := mem_unfinished incomplete
    refine ⟨?_, ne_of_mem_of_not_mem inLine last⟩
    rw [← whole]
    exact List.mem_append_right _ inLine

end Text

namespace Raster

variable {α β : Type}

theorem widest_cons (line : List α) (lines : List (List α)) :
    widest (line :: lines) = max line.length (widest lines) := rfl

theorem widest_map (change : List α → List β) (lines : List (List α))
    (kept : ∀ line ∈ lines, (change line).length = line.length) :
    widest (lines.map change) = widest lines := by
  induction lines with
  | nil => rfl
  | cons line lines ih =>
    obtain ⟨head, kept⟩ := List.forall_mem_cons.mp kept
    rw [List.map_cons, widest_cons, widest_cons, head, ih kept]

theorem widest_eq_max? (lines : List (List α)) :
    widest lines = (lines.map List.length).max?.getD 0 := by
  induction lines with
  | nil => rfl
  | cons line lines ih =>
    rw [widest_cons, ih, List.map_cons, List.max?_cons]
    cases (lines.map List.length).max? with
    | none => exact Nat.max_zero _
    | some longest => rfl

theorem widest_le {lines : List (List α)} {width : ℕ}
    (bounded : ∀ line ∈ lines, line.length ≤ width) : widest lines ≤ width := by
  induction lines with
  | nil => exact Nat.zero_le width
  | cons line lines ih =>
    obtain ⟨head, bounded⟩ := List.forall_mem_cons.mp bounded
    rw [widest_cons]
    exact max_le head (ih bounded)

theorem widest_rightpad (lines : List (List α)) (filler : α) :
    widest (lines.map fun line => line.rightpad (widest lines) filler) = widest lines := by
  apply le_antisymm
  · apply widest_le
    intro padded member
    obtain ⟨line, inLines, rfl⟩ := List.mem_map.mp member
    rw [List.length_rightpad]
    exact max_le le_rfl (length_le_widest inLines)
  · apply widest_le
    intro line inLines
    have longer := length_le_widest
      (List.mem_map_of_mem (f := fun line => line.rightpad (widest lines) filler) inLines)
    rw [List.length_rightpad] at longer
    exact (le_max_right ..).trans longer

theorem ofLines_rightpad (lines : List (List α)) (filler : α) :
    ofLines (lines.map fun line => line.rightpad (widest lines) filler) filler =
      ofLines lines filler := by
  have filled (line : List α) (width : ℕ) :
      (line.rightpad width filler).rightpad width filler = line.rightpad width filler := by
    have full : width - (line.rightpad width filler).length = 0 := by
      rw [List.length_rightpad]
      omega
    rw [List.rightpad, full, List.replicate_zero, List.append_nil]
  simp only [ofLines, widest_rightpad, List.map_map, Function.comp_def, filled]

end Raster

namespace Playfield

variable {source : String}

theorem build_eq (source : String) : build source =
    .ofLines ((Text.sourceLines source.toList).map (List.map (Cell.mk · false))) ⟨' ', false⟩ := rfl

theorem build_width (source : String) :
    (build source).width = Raster.widest (Text.sourceLines source.toList) :=
  Raster.widest_map _ _ fun _ _ => List.length_map _

theorem build_height (source : String) :
    (build source).height = (Text.sourceLines source.toList).length := by
  simp [build_eq, Raster.ofLines, Raster.height]

theorem build_get? (source : String) (x y : ℕ) : (build source).get? x y =
    (Text.sourceLines source.toList)[y]?.bind fun row =>
      if x < (build source).width then some ⟨row[x]?.getD ' ', false⟩ else none := by
  have width : Raster.widest ((Text.sourceLines source.toList).map (List.map (Cell.mk · false))) =
      (build source).width := rfl
  rw [build_eq, Raster.get?_ofLines, width, List.getElem?_map, Option.bind_map]
  apply Option.bind_congr
  intro row _
  simp only [Function.comp_apply, List.getElem?_map]
  cases row[x]? <;> rfl

theorem build_lines (source : String) : (build source).lines =
    (Text.sourceLines source.toList).map fun line => line.rightpad (build source).width ' ' := by
  have rows : (build source).rows.toList = (Text.sourceLines source.toList).map fun line =>
      ((line.map (Cell.mk · false)).rightpad (build source).width ⟨' ', false⟩).toArray := by
    simp [build_eq, Raster.ofLines]
  rw [lines, rows, List.map_map]
  apply List.map_congr_left
  intro line _
  simp [List.rightpad, Function.comp_def]

theorem proper_build_lines (plain : '\r' ∉ source.toList) :
    ∀ row ∈ (build source).lines, Text.Proper row := by
  intro row member
  rw [build_lines] at member
  obtain ⟨line, inSource, rfl⟩ := List.mem_map.mp member
  have symbols {symbol : Char} (inRow : symbol ∈ line.rightpad (build source).width ' ') :
      symbol = ' ' ∨ symbol ∈ source.toList ∧ symbol ≠ '\n' := by
    rcases List.mem_append.mp inRow with inLine | filler
    · exact .inr (Text.mem_of_mem_sourceLines inSource inLine)
    · exact .inl (List.eq_of_mem_replicate filler)
  refine ⟨?_, ?_⟩
  · intro feed
    rcases symbols feed with blank | ⟨_, other⟩
    · cases blank
    · exact other rfl
  · intro returned
    rcases symbols (List.mem_of_getLast? returned) with blank | ⟨inText, _⟩
    · cases blank
    · exact plain inText

theorem build_eq_of_sourceLines {one other : String}
    (same : Text.sourceLines one.toList = Text.sourceLines other.toList) :
    build one = build other := by
  rw [build_eq, build_eq, same]

/-- The rows of a playfield are a text that builds it again. -/
theorem build_of_lines {again : String}
    (read : Text.sourceLines again.toList = (build source).lines) : build again = build source := by
  have padded : (build source).lines.map (List.map (Cell.mk · false)) =
      ((Text.sourceLines source.toList).map (List.map (Cell.mk · false))).map fun row =>
        row.rightpad (build source).width ⟨' ', false⟩ := by
    rw [build_lines, List.map_map, List.map_map]
    apply List.map_congr_left
    intro line _
    simp [List.rightpad]
  rw [build_eq again, read, padded]
  exact Raster.ofLines_rightpad _ _

/-- A program text builds the lines that are written down in it, however they end, and nothing else.
So texts that differ only in their endings build the same playfield, and so do the rows of a
playfield that was built without carriage returns. -/
theorem build_inverts_writing :
    (∀ (lines : List (List Char)) (source : String), Text.Writes lines source.toList →
      (∀ line ∈ lines, Text.Proper line) →
      let field := build source
      field.height = lines.length ∧ field.width = (lines.map List.length).max?.getD 0 ∧
      (∀ x y row, lines[y]? = some row → x < field.width →
        field.get? x y = some ⟨row[x]?.getD ' ', false⟩) ∧
      field.modifiedCells = []) ∧
    (∀ (lines : List (List Char)) (one other : String), Text.Writes lines one.toList →
      Text.Writes lines other.toList → (∀ line ∈ lines, Text.Proper line) →
      build one = build other) ∧
    ∀ source : String, '\r' ∉ source.toList →
      build (String.ofList ((build source).lines.flatMap (· ++ ['\n']))) = build source := by
  refine ⟨?_, ?_, ?_⟩
  · intro lines source writes proper field
    have read := writes.sourceLines proper
    refine ⟨?_, ?_, ?_, modifiedCells_build source⟩
    · rw [build_height, read]
    · rw [build_width, read, Raster.widest_eq_max?]
    · intro x y row found inside
      rw [build_get?, read, found, Option.bind_some, if_pos inside]
  · intro lines one other first second proper
    apply build_eq_of_sourceLines
    rw [first.sourceLines proper, second.sourceLines proper]
  · intro source plain
    have read := (Text.writes_feeds (build source).lines).sourceLines (proper_build_lines plain)
    apply build_of_lines
    rw [String.toList_ofList, read]

/-- Three lines, the first one ended by a return and a feed and the last one not ended. -/
theorem build_inverts_writing_of_mixed_endings :
    let lines := [['>', '1', '.'], [], ['v', '@']]
    let source := ">1.\r\n\nv@"
    let plain := ">1.\n\nv@\n"
    Text.Writes lines source.toList ∧ Text.Writes lines plain.toList ∧
    (build source).height = 3 ∧ (build source).width = 3 ∧
    (build source).get? 1 2 = some ⟨'@', false⟩ ∧ (build source).get? 2 2 = some ⟨' ', false⟩ ∧
    build source = build plain := by
  intro lines source plain
  have proper : ∀ line ∈ lines, Text.Proper line := by decide
  have mixed : Text.Writes lines source.toList := by
    have text : source.toList = ['>', '1', '.'] ++ ['\r', '\n'] ++ ([] ++ ['\n'] ++ ['v', '@']) := by
      decide +kernel
    rw [text]
    exact .ended _ .returnFeed (.ended _ .feed (.unended _ (by decide)))
  have feeds : Text.Writes lines plain.toList := by
    have text : plain.toList = lines.flatMap (· ++ ['\n']) := by decide +kernel
    rw [text]
    exact Text.writes_feeds lines
  obtain ⟨built, alike, _⟩ := build_inverts_writing
  obtain ⟨height, width, cells, _⟩ := built lines source mixed proper
  refine ⟨mixed, feeds, height, width, ?_, ?_, alike lines source plain mixed feeds proper⟩
  · exact cells 1 2 ['v', '@'] rfl (by rw [width]; decide)
  · exact cells 2 2 ['v', '@'] rfl (by rw [width]; decide)

end Playfield

end Befunge
