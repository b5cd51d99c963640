import Befunge.Proofs.SourceText

/-! Printed text and its lines. All that the lines leave out of a text is one line feed at its end. -/
namespace Befunge

namespace Text

/-- The text without the line feed at its end, if there is one. -/
def dropFeed (text : List Char) : List Char :=
  if text.getLast? = some '\n' then text.dropLast else text

theorem dropFeed_concat (text : List Char) : dropFeed (text ++ ['\n']) = text := by
  rw [dropFeed, List.getLast?_concat, if_pos rfl, List.dropLast_concat]

theorem dropFeed_append {line : List Char} (unbroken : '\n' ∉ line) (filled : line ≠ [])
    (text : List Char) : dropFeed (text ++ line) = text ++ line := by
  rw [dropFeed, List.getLast?_append_of_ne_nil _ filled, if_neg]
  intro ends
  exact unbroken (List.mem_of_getLast? ends)

theorem intercalate_concat (lines : List (List Char)) (last : List Char) :
    ['\n'].intercalate (lines ++ [last]) = lines.flatMap (· ++ ['\n']) ++ last := by
  induction lines with
  | nil => exact List.intercalate_singleton
  | cons line lines ih =>
    rw [List.cons_append, List.intercalate_cons_of_ne_nil (by simp), ih, List.flatMap_cons,
      ← List.append_assoc]

theorem intercalate_outputLines (text : List Char) :
    ['\n'].intercalate (outputLines text) = dropFeed text := by
  have whole := join_splitBreaks text
  have unbroken := (unbroken_splitBreaks text).2
  rw [outputLines]
  generalize splitBreaks text = split at whole unbroken ⊢
  obtain ⟨ended, last⟩ := split
  cases last with
  | cons symbol last =>
    rw [← whole, dropFeed_append unbroken (List.cons_ne_nil symbol last)]
    exact intercalate_concat ended (symbol :: last)
  | nil =>
    simp only [unfinished, List.append_nil] at whole ⊢
    induction ended using List.reverseRecOn with
    | nil => rw [← whole]; rfl
    | append_singleton ended line =>
      have broken : text = ended.flatMap (· ++ ['\n']) ++ line ++ ['\n'] := by
        simpa using whole.symm
      rw [intercalate_concat, broken, dropFeed_concat]

theorem unbroken_outputLines (text : List Char) : ∀ line ∈ outputLines text, '\n' ∉ line := by
  obtain ⟨ended, last⟩ := unbroken_splitBreaks text
  intro line member
  rcases List.mem_append.mp member with complete | incomplete
  · exact ended line complete
  · rw [mem_unfinished incomplete]
    exact last

theorem outputLines_eq_nil_iff {text : List Char} : outputLines text = [] ↔ text = [] := by
  constructor
  · intro none
    obtain ⟨ended, unended⟩ := List.append_eq_nil_iff.mp none
    have last : (splitBreaks text).2 = [] := by
      cases rest : (splitBreaks text).2 with
      | nil => rfl
      | cons => rw [rest] at unended; cases unended
    rw [← join_splitBreaks text, ended, last]
    rfl
  · rintro rfl
    rfl

/-- The lines are what the text without its final line feed is split into. -/
theorem outputLines_eq_splitOn {text : List Char} (filled : text ≠ []) :
    outputLines text = (dropFeed text).splitOn '\n' := by
  rw [← intercalate_outputLines]
  symm
  apply List.splitOn_intercalate _ (unbroken_outputLines text)
  exact outputLines_eq_nil_iff.not.mpr filled

theorem outputLines_eq_iff {one other : List Char} (first : one ≠ []) (second : other ≠ []) :
    outputLines one = outputLines other ↔ dropFeed one = dropFeed other := by
  constructor
  · intro same
    rw [← intercalate_outputLines, same, intercalate_outputLines]
  · intro same
    rw [outputLines_eq_splitOn first, same, outputLines_eq_splitOn second]

theorem length_splitBreaks (text : List Char) : (splitBreaks text).1.length = text.count '\n' := by
  induction text with
  | nil => rfl
  | cons symbol text ih =>
    change (consSplit symbol (splitBreaks text)).1.length = _
    rw [List.count_cons, ← ih]
    generalize splitBreaks text = split
    obtain ⟨ended, last⟩ := split
    unfold consSplit
    split_ifs with feed broken broken
    · rfl
    · exact absurd (beq_iff_eq.mpr feed) broken
    · exact absurd (beq_iff_eq.mp broken) feed
    · cases ended <;> rfl

theorem length_outputLines_le (text : List Char) :
    (outputLines text).length ≤ text.count '\n' + 1 := by
  have single : (unfinished (splitBreaks text).2).length ≤ 1 := by
    cases (splitBreaks text).2 <;> simp [unfinished]
  rw [outputLines, List.length_append, length_splitBreaks]
  exact Nat.add_le_add_left single _

end Text

namespace Transcript

inductive Print where
  | text (content : String)
  | character (symbol : Char)

def Print.written : Print → String
  | .text content => content
  | .character symbol => String.singleton symbol

def receive (transcript : Transcript) : Print → Transcript
  | .text content => transcript.print content
  | .character symbol => transcript.printCharacter symbol

def printed (prints : List Print) : Transcript := prints.foldl receive .empty

theorem text_receive (transcript : Transcript) (print : Print) :
    (transcript.receive print).text = transcript.text ++ print.written := by
  cases print with
  | text content => rfl
  | character symbol => exact String.push_eq_append symbol

theorem text_foldl_receive (transcript : Transcript) (prints : List Print) :
    (prints.foldl receive transcript).text =
      transcript.text ++ String.join (prints.map Print.written) := by
  induction prints generalizing transcript with
  | nil => exact String.append_empty.symm
  | cons print prints ih =>
    rw [List.foldl_cons, ih, text_receive, List.map_cons, String.join_cons, String.append_assoc]

theorem text_printed (prints : List Print) :
    (printed prints).text = String.join (prints.map Print.written) := by
  rw [printed, text_foldl_receive]
  exact String.empty_append

/-- Whatever is printed and in which parts, the lines joined together are the printed text, without
its last line feed if it ends in one. So texts that are not empty have the same lines just if they
are the same up to that line feed. -/
theorem lines_lose_final_feed_only (prints others : List Print) :
    let transcript := printed prints
    let text := String.join (prints.map Print.written)
    let other := String.join (others.map Print.written)
    transcript.text = text ∧
    (transcript.lines = [] ↔ text = "") ∧
    (∀ line ∈ transcript.lines, '\n' ∉ line) ∧
    ['\n'].intercalate transcript.lines = Text.dropFeed text.toList ∧
    (text ≠ "" → other ≠ "" → (transcript.lines = (printed others).lines ↔
      Text.dropFeed text.toList = Text.dropFeed other.toList)) := by
  intro transcript text other
  have first : transcript.text = text := text_printed prints
  have second : (printed others).text = other := text_printed others
  simp only [lines, first, second]
  refine ⟨trivial, ?_, ?_, ?_, fun filled more => ?_⟩
  · rw [Text.outputLines_eq_nil_iff, String.toList_eq_nil_iff]
  · exact Text.unbroken_outputLines text.toList
  · exact Text.intercalate_outputLines text.toList
  · exact Text.outputLines_eq_iff (String.toList_eq_nil_iff.not.mpr filled)
      (String.toList_eq_nil_iff.not.mpr more)

end Transcript

end Befunge
