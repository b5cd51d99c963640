import Befunge.Heading

/-! The instruction set: what each character means and what it is called. -/
namespace Befunge

inductive Operator where
  | add
  | subtract
  | multiply
  | divide
  | modulo
  deriving DecidableEq

/-- Applies an operator to the second value of the stack and the top, in this
order. Arithmetic wraps at 64 bits, division truncates, and dividing by zero
gives zero. -/
def Operator.apply : Operator → Int64 → Int64 → Int64
  | add, below, top => below + top
  | subtract, below, top => below - top
  | multiply, below, top => below * top
  | divide, below, top => if top = 0 then 0 else below / top
  | modulo, below, top => if top = 0 then 0 else below % top

inductive Instruction where
  | digit (value : Fin 10)
  | compute (operator : Operator)
  | negate
  | greater
  | go (heading : Heading)
  | random
  | horizontalIf
  | verticalIf
  | stringMode
  | duplicate
  | swap
  | discard
  | outputInteger
  | outputCharacter
  | trampoline
  | put
  | get
  | halt
  | blank
  deriving DecidableEq

namespace Instruction

def decode (c : Char) : Instruction :=
  match c with
  | '0' => digit 0
  | '1' => digit 1
  | '2' => digit 2
  | '3' => digit 3
  | '4' => digit 4
  | '5' => digit 5
  | '6' => digit 6
  | '7' => digit 7
  | '8' => digit 8
  | '9' => digit 9
  | '+' => compute .add
  | '-' => compute .subtract
  | '*' => compute .multiply
  | '/' => compute .divide
  | '%' => compute .modulo
  | '!' => negate
  | '\x60' => greater
  | '>' => go .right
  | '<' => go .left
  | '^' => go .up
  | 'v' => go .down
  | '?' => random
  | '_' => horizontalIf
  | '|' => verticalIf
  | '\x22' => stringMode
  | ':' => duplicate
  | '\\' => swap
  | '$' => discard
  | '.' => outputInteger
  | ',' => outputCharacter
  | '#' => trampoline
  | 'p' => put
  | 'g' => get
  | '@' => halt
  | _ => blank

def mnemonic : Instruction → String
  | digit _ => "push digit"
  | compute .add => "add"
  | compute .subtract => "subtract"
  | compute .multiply => "multiply"
  | compute .divide => "divide"
  | compute .modulo => "modulo"
  | negate => "not"
  | greater => "greater"
  | go _ => "go"
  | random => "random direction"
  | horizontalIf => "horizontal if"
  | verticalIf => "vertical if"
  | stringMode => "string mode"
  | duplicate => "duplicate"
  | swap => "swap"
  | discard => "discard"
  | outputInteger => "output int"
  | outputCharacter => "output char"
  | trampoline => "trampoline"
  | put => "put"
  | get => "get"
  | halt => "halt"
  | blank => "no-op"

end Instruction

end Befunge
