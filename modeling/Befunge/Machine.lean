import Befunge.Instruction
import Befunge.Playfield
import Befunge.Pointer
import Befunge.Stack
import Befunge.Text.Symbol
import Befunge.Transcript

/-! The state of a running program and the cycle that carries it on. -/
namespace Befunge

inductive Halt where
  | terminated
  | stepLimit
  | emptyProgram
  deriving DecidableEq

def Halt.message : Halt → String
  | terminated => "terminated"
  | stepLimit => "step limit reached"
  | emptyProgram => "empty program"

structure Machine where
  field : Playfield
  pointer : Pointer
  stack : Stack
  stringMode : Bool
  output : Transcript
  steps : Nat
  halt : Option Halt
  deriving DecidableEq

namespace Machine

def load (source : String) : Machine where
  field := .build source
  pointer := .start
  stack := .empty
  stringMode := false
  output := .empty
  steps := 0
  halt := none

def symbol (machine : Machine) : Char := machine.field.read machine.pointer.x machine.pointer.y

def push (machine : Machine) (value : Int64) : Machine :=
  {machine with stack := machine.stack.push value}

def turn (machine : Machine) (heading : Heading) : Machine :=
  {machine with pointer := machine.pointer.turn heading}

def advance (machine : Machine) : Machine :=
  {machine with pointer := machine.pointer.advance machine.field.width machine.field.height}

/-- The playfield that a put leaves behind, with row, column and symbol code taken
from the stack. There is none, and the put does not land, if the code is no
character or the target lies outside. -/
def written? (machine : Machine) : Option Playfield :=
  let (y, stack) := machine.stack.pop
  let (x, stack) := stack.pop
  (Text.ofCode? stack.peek).bind (machine.field.write? x y)

def put (machine : Machine) : Machine :=
  let stack := machine.stack.drop.drop.drop
  match machine.written? with
  | some field => {machine with field, stack}
  | none => {machine with stack}

def get (machine : Machine) : Machine :=
  let (y, stack) := machine.stack.pop
  let (x, stack) := stack.pop
  let value := match machine.field.cell? x y with
    | some cell => Text.code cell.symbol
    | none => 0
  {machine with stack := stack.push value}

/-- Carries one instruction out. A request for a random heading gets the given
answer. -/
def execute (answer : Heading) (machine : Machine) : Instruction → Machine
  | .digit value => machine.push (Int64.ofNat value)
  | .compute operator =>
    let ((below, top), stack) := machine.stack.popPair
    {machine with stack := stack.push (operator.apply below top)}
  | .negate =>
    let (value, stack) := machine.stack.pop
    {machine with stack := stack.push (if value = 0 then 1 else 0)}
  | .greater =>
    let ((below, top), stack) := machine.stack.popPair
    {machine with stack := stack.push (if top < below then 1 else 0)}
  | .go heading => machine.turn heading
  | .random => machine.turn answer
  | .horizontalIf =>
    let (value, stack) := machine.stack.pop
    {machine with stack}.turn (if value = 0 then .right else .left)
  | .verticalIf =>
    let (value, stack) := machine.stack.pop
    {machine with stack}.turn (if value = 0 then .down else .up)
  | .stringMode => {machine with stringMode := !machine.stringMode}
  | .duplicate => {machine with stack := machine.stack.duplicate}
  | .swap => {machine with stack := machine.stack.swap}
  | .discard => {machine with stack := machine.stack.drop}
  | .outputInteger =>
    let (value, stack) := machine.stack.pop
    {machine with stack, output := machine.output.print (toString value.toInt)}
  | .outputCharacter =>
    let (value, stack) := machine.stack.pop
    let symbol := (Text.ofCode? value).getD Text.replacement
    {machine with stack, output := machine.output.printCharacter symbol}
  | .trampoline => machine.advance
  | .put => machine.put
  | .get => machine.get
  | .halt => machine
  | .blank => machine

/-- In string mode every symbol but the closing quote stands for its own code. -/
def isLiteral (machine : Machine) : Bool := machine.stringMode && machine.symbol != '\x22'

def dispatch (answer : Heading) (machine : Machine) : Machine :=
  if machine.isLiteral then machine.push (Text.code machine.symbol)
  else machine.execute answer (.decode machine.symbol)

def cycle (answer : Heading) (machine : Machine) : Machine :=
  let next := (machine.dispatch answer).advance
  {next with steps := next.steps + 1}

def verdict (limit : Nat) (machine : Machine) : Option Halt :=
  if machine.field.isEmpty then some .emptyProgram
  else if !machine.stringMode && machine.symbol == '@' then some .terminated
  else if limit ≤ machine.steps then some .stepLimit
  else none

def asks (limit : Nat) (machine : Machine) : Bool :=
  !machine.stringMode && machine.symbol == '?' && (machine.verdict limit).isNone

/-- Whether the next step is a put that lands. One that writes the symbol already
there lands too. -/
def lands (limit : Nat) (machine : Machine) : Bool :=
  !machine.stringMode && machine.symbol == 'p' && (machine.verdict limit).isNone &&
    machine.written?.isSome

def step (limit : Nat) (answer : Heading) (machine : Machine) : Machine :=
  match machine.verdict limit with
  | some halt => {machine with halt := some halt}
  | none => machine.cycle answer

def footprint (machine : Machine) : Nat :=
  96 + 8 * machine.stack.depth + machine.output.size

end Machine

end Befunge
