/-! Line structure of a text. A line feed ends a line; text after the last line
feed is one more line unless it is empty. -/
namespace Befunge.Text

def consSplit (c : Char) (split : List (List Char) × List Char) : List (List Char) × List Char :=
  if c = '\n' then ([] :: split.1, split.2)
  else match split.1 with
    | [] => ([], c :: split.2)
    | line :: rest => ((c :: line) :: rest, split.2)

/-- The lines that a line feed ends, and the text after the last line feed. -/
def splitBreaks (text : List Char) : List (List Char) × List Char :=
  text.foldr consSplit ([], [])

def unfinished : List Char → List (List Char)
  | [] => []
  | text => [text]

def outputLines (text : List Char) : List (List Char) :=
  let split := splitBreaks text
  split.1 ++ unfinished split.2

def dropReturn (line : List Char) : List Char :=
  if line.getLast? = some '\r' then line.dropLast else line

/-- Lines of a program text. A carriage return right before a line feed belongs
to the line break. -/
def sourceLines (text : List Char) : List (List Char) :=
  let split := splitBreaks text
  split.1.map dropReturn ++ unfinished split.2

end Befunge.Text
