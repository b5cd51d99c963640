/-! Characters as numbers and as symbols on a screen. -/
namespace Befunge.Text

def ofCode? (code : Int64) : Option Char :=
  if 0 ≤ code ∧ code.toNatClampNeg.isValidChar then some (Char.ofNat code.toNatClampNeg) else none

def code (c : Char) : Int64 := Int64.ofNat c.toNat

theorem toInt_code (symbol : Char) : (code symbol).toInt = symbol.toNat := by
  have bound : symbol.toNat < 2 ^ 32 := symbol.val.toNat_lt
  exact Int64.toInt_ofNat_of_lt (by omega)

def replacement : Char := '�'

/-- Control characters in the sense of Unicode. -/
def isControl (c : Char) : Bool := c.toNat < 0x20 || (0x7F ≤ c.toNat && c.toNat ≤ 0x9F)

def isBlank (c : Char) : Bool :=
  (0x09 ≤ c.toNat && c.toNat ≤ 0x0D) || c.toNat == 0x20 || c.toNat == 0x85 || c.toNat == 0xA0 ||
  c.toNat == 0x1680 || (0x2000 ≤ c.toNat && c.toNat ≤ 0x200A) || c.toNat == 0x2028 ||
  c.toNat == 0x2029 || c.toNat == 0x202F || c.toNat == 0x205F || c.toNat == 0x3000

/-- Columns a character takes on a screen. Of the wide characters only the block from the
ideographic space to the end of the unified ideographs is known here. -/
def columns (c : Char) : Nat := if 0x3000 ≤ c.toNat ∧ c.toNat ≤ 0x9FFF then 2 else 1

def totalColumns : List Char → Nat
  | [] => 0
  | c :: rest => columns c + totalColumns rest

def escape (c : Char) : List Char :=
  if c = '\t' then ['\\', 't']
  else if c = '\r' then ['\\', 'r']
  else if c = '\n' then ['\\', 'n']
  else ['\\', 'u', '\x7b'] ++ Nat.toDigits 16 c.toNat ++ ['\x7d']

def escapeControls (text : List Char) : List Char :=
  text.flatMap fun c => if isControl c then escape c else [c]

end Befunge.Text
