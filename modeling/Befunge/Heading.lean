/-! The four headings of the instruction pointer on the playfield. -/
namespace Befunge

inductive Heading where
  | right
  | left
  | up
  | down
  deriving DecidableEq, Inhabited

namespace Heading

/-- Columns grow to the right and rows grow downwards. -/
def offset : Heading → Int64 × Int64
  | right => (1, 0)
  | left => (-1, 0)
  | up => (0, -1)
  | down => (0, 1)

def arrow : Heading → Char
  | right => '→'
  | left => '←'
  | up => '↑'
  | down => '↓'

def name : Heading → String
  | right => "right"
  | left => "left"
  | up => "up"
  | down => "down"

end Heading

end Befunge
