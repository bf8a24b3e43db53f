/-!
# The ChaCha8 keystream

ChaCha with eight rounds, a 64-bit block counter and a zero nonce. The stream is described by
position: word `p` of it is word `p mod 16` of block `p div 16`, and each block is a function of the
key and its number alone. A 64-bit seed is expanded to a key by a congruential generator with a
permuted output.
-/

namespace PartyInputs

/-- The eight words of a key. -/
abbrev Key := Vector UInt32 8

/-- The sixteen words of a block. -/
abbrev Block := Vector UInt32 16

/-! ## Blocks -/

namespace Block

/-- Rotation to the left by `n` bits, for `n` from 1 to 31. -/
def rotateLeft (x n : UInt32) : UInt32 := x <<< n ||| x >>> (32 - n)

/-- The quarter round on four words of a block. -/
def quarterRound (b : Block) (i j k l : Fin 16) : Block :=
  let b := b.set i (b[i] + b[j])
  let b := b.set l (rotateLeft (b[l] ^^^ b[i]) 16)
  let b := b.set k (b[k] + b[l])
  let b := b.set j (rotateLeft (b[j] ^^^ b[k]) 12)
  let b := b.set i (b[i] + b[j])
  let b := b.set l (rotateLeft (b[l] ^^^ b[i]) 8)
  let b := b.set k (b[k] + b[l])
  b.set j (rotateLeft (b[j] ^^^ b[k]) 7)

/-- Two rounds: the four columns, then the four diagonals. -/
def doubleRound (b : Block) : Block :=
  let b := b.quarterRound 0 4 8 12
  let b := b.quarterRound 1 5 9 13
  let b := b.quarterRound 2 6 10 14
  let b := b.quarterRound 3 7 11 15
  let b := b.quarterRound 0 5 10 15
  let b := b.quarterRound 1 6 11 12
  let b := b.quarterRound 2 7 8 13
  b.quarterRound 3 4 9 14

/-- Which word of its block a position of the stream is. -/
def wordIndex (position : Nat) : Fin 16 := ⟨position % 16, Nat.mod_lt _ (by decide)⟩

end Block

namespace Key

/-- What the rounds start from: four constants, the key, the number of the block, a zero nonce. -/
def initial (key : Key) (number : UInt64) : Block :=
  #v[0x61707865, 0x3320646e, 0x79622d32, 0x6b206574,
    key[0], key[1], key[2], key[3], key[4], key[5], key[6], key[7],
    number.toUInt32, (number >>> 32).toUInt32, 0, 0]

/-- The block of the keystream with the given number. -/
def block (key : Key) (number : UInt64) : Block :=
  let start := key.initial number
  let mixed := start.doubleRound.doubleRound.doubleRound.doubleRound
  Vector.zipWith (· + ·) mixed start

/-- The word of the keystream at the given position. -/
def word (key : Key) (position : Nat) : UInt32 :=
  (key.block (UInt64.ofNat (position / 16))).get (Block.wordIndex position)

/-! ## Expanding a seed -/

/-- One step of the generator that expands seeds. -/
def nextState (state : UInt64) : UInt64 := state * 6364136223846793005 + 11634580027462260723

/-- The word that a state of the generator gives: its upper half folded onto itself, rotated to the
right by as many bits as the five highest bits say. -/
def stateWord (state : UInt64) : UInt32 :=
  let folded := (((state >>> 18) ^^^ state) >>> 27).toUInt32
  let turn := (state >>> 59).toUInt32
  folded >>> turn ||| folded <<< ((32 - turn) % 32)

/-- The key of a seed: the words of the first eight states after it. -/
def ofSeed (seed : UInt64) : Key :=
  Vector.ofFn fun i : Fin 8 => stateWord (Nat.repeat nextState (i.val + 1) seed)

end Key

end PartyInputs
