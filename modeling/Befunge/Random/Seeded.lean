import Befunge.Directions
import Befunge.Random.ChaCha

/-! Headings drawn from a generator that one number determines. -/
namespace Befunge.Random

/-- Key words from a seed: a linear congruential sequence whose states are
permuted by a shift and a rotation. -/
def expandSeed : Nat → UInt64 → List UInt32
  | 0, _ => []
  | count + 1, state =>
    let state := state * 6364136223846793005 + 11634580027462260723
    let shifted := (((state >>> 18) ^^^ state) >>> 27).toUInt32
    ChaCha.rotateRight shifted (state >>> 59).toUInt32 :: expandSeed count state

theorem length_expandSeed (count : Nat) (state : UInt64) :
    (expandSeed count state).length = count := by
  induction count generalizing state with
  | zero => rfl
  | succ count ih => simp [expandSeed, ih]

structure Seeded where
  key : ChaCha.Key
  counter : UInt64
  pending : List UInt64

namespace Seeded

def ofSeed (seed : UInt64) : Seeded where
  key := ⟨(expandSeed 8 seed).toArray, by rw [List.size_toArray, length_expandSeed]⟩
  counter := 0
  pending := []

def word (generator : Seeded) : UInt64 × Seeded :=
  match generator.pending with
  | word :: rest => (word, {generator with pending := rest})
  | [] =>
    let words := ChaCha.block generator.key generator.counter
    (ChaCha.pair words 0,
      {generator with
        counter := generator.counter + 1
        pending := [1, 2, 3, 4, 5, 6, 7].map (ChaCha.pair words)})

/-- A word is fit to choose one of four headings if its bit 61 is clear. -/
def fits (word : UInt64) : Bool := word &&& 0x2000000000000000 == 0

def heading (word : UInt64) : Heading :=
  match (word >>> 62).toNat with
  | 0 => .right
  | 1 => .left
  | 2 => .up
  | _ => .down

def draw : Nat → Seeded → Heading × Seeded
  | 0, generator => (.right, generator)
  | tries + 1, generator =>
    let (word, rest) := generator.word
    if fits word then (heading word, rest) else draw tries rest

/-- The generator repeats itself after `2 ^ 64` blocks of eight words, so no more
words than that need to be tried. -/
def period : Nat := 8 * UInt64.size

instance : DirectionSource Seeded := ⟨draw period⟩

end Seeded

end Befunge.Random
