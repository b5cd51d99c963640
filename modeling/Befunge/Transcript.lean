import Befunge.Text.Lines

/-! What a program has printed so far. -/
namespace Befunge

structure Transcript where
  text : String
  deriving DecidableEq

namespace Transcript

def empty : Transcript := ⟨""⟩

def print (transcript : Transcript) (text : String) : Transcript := ⟨transcript.text ++ text⟩

def printCharacter (transcript : Transcript) (symbol : Char) : Transcript :=
  ⟨transcript.text.push symbol⟩

def lines (transcript : Transcript) : List (List Char) := Text.outputLines transcript.text.toList

/-- Bytes of the text in UTF-8. -/
def size (transcript : Transcript) : Nat := transcript.text.utf8ByteSize

end Transcript

end Befunge
