/-! The value stack. Reading below the bottom yields zeros, so no operation on it
can fail. -/
namespace Befunge

structure Stack where
  /-- The top of the stack comes first. -/
  topFirst : List Int64
  deriving DecidableEq

namespace Stack

def empty : Stack := ⟨[]⟩

def ofList (values : List Int64) : Stack := ⟨values.reverse⟩

/-- The values held, from the bottom to the top. -/
def toList (stack : Stack) : List Int64 := stack.topFirst.reverse

def depth (stack : Stack) : Nat := stack.topFirst.length

def isEmpty (stack : Stack) : Bool := stack.topFirst.isEmpty

def push (stack : Stack) (value : Int64) : Stack := ⟨value :: stack.topFirst⟩

def peek (stack : Stack) : Int64 := stack.topFirst.headD 0

def drop (stack : Stack) : Stack := ⟨stack.topFirst.tail⟩

def pop (stack : Stack) : Int64 × Stack := (stack.peek, stack.drop)

/-- Takes two values: the second from the top, then the top itself. -/
def popPair (stack : Stack) : (Int64 × Int64) × Stack :=
  ((stack.drop.peek, stack.peek), stack.drop.drop)

def duplicate (stack : Stack) : Stack := stack.push stack.peek

def swap (stack : Stack) : Stack :=
  let ((below, top), rest) := stack.popPair
  (rest.push top).push below

@[simp]
theorem peek_push (stack : Stack) (value : Int64) : (stack.push value).peek = value := rfl

@[simp]
theorem drop_push (stack : Stack) (value : Int64) : (stack.push value).drop = stack := rfl

@[simp]
theorem toList_push (stack : Stack) (value : Int64) :
    (stack.push value).toList = stack.toList ++ [value] := by
  simp [toList, push]

@[simp]
theorem toList_ofList (values : List Int64) : (ofList values).toList = values := by
  simp [toList, ofList]

end Stack

end Befunge
