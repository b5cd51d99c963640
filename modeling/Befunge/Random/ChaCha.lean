/-! The ChaCha stream generator with twelve rounds, a key of eight words, a block
counter of two words and a zero nonce. -/
namespace Befunge.Random.ChaCha

abbrev State := Vector UInt32 16

abbrev Key := Vector UInt32 8

def rotateLeft (word amount : UInt32) : UInt32 :=
  word <<< amount ||| word >>> (32 - amount)

def rotateRight (word amount : UInt32) : UInt32 :=
  word >>> amount ||| word <<< (32 - amount)

/-- Adds the word at `source` to the one at `target` and rotates the sum into the
word at `mixed`. -/
def mix (state : State) (target source mixed : Fin 16) (amount : UInt32) : State :=
  let sum := state[target] + state[source]
  (state.set target sum).set mixed (rotateLeft (state[mixed] ^^^ sum) amount)

def quarterRound (state : State) (a b c d : Fin 16) : State :=
  mix (mix (mix (mix state a b d 16) c d b 12) a b d 8) c d b 7

def doubleRound (state : State) : State :=
  let state := quarterRound state 0 4 8 12
  let state := quarterRound state 1 5 9 13
  let state := quarterRound state 2 6 10 14
  let state := quarterRound state 3 7 11 15
  let state := quarterRound state 0 5 10 15
  let state := quarterRound state 1 6 11 12
  let state := quarterRound state 2 7 8 13
  quarterRound state 3 4 9 14

def initial (key : Key) (counter : UInt64) : State :=
  #v[0x61707865, 0x3320646e, 0x79622d32, 0x6b206574,
    key[0], key[1], key[2], key[3], key[4], key[5], key[6], key[7],
    counter.toUInt32, (counter >>> 32).toUInt32, 0, 0]

def block (key : Key) (counter : UInt64) : State :=
  let start := initial key counter
  (Nat.repeat doubleRound 6 start).zipWith (· + ·) start

/-- Word `k` of a block when its words are paired up, the low half first. -/
def pair (words : State) (k : Fin 8) : UInt64 :=
  words[2 * k.val].toUInt64 ||| words[2 * k.val + 1].toUInt64 <<< 32

end Befunge.Random.ChaCha
