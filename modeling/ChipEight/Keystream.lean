import ChipEight.Table

/-!
# Random words

A stream of 32-bit words from a key of eight words: ChaCha with twelve rounds and no
nonce. The stream is cut into blocks of sixteen words, and every block depends on the
key and its own number only, so a word of the stream is determined by its place. A
generator is the key together with the number of words already drawn.
-/

namespace ChipEight

namespace Keystream

/-- The sixteen words of a block, or of a stage in its making. -/
abbrev Block := Vector UInt32 16

/-- Rotate a word to the left. -/
def rotate (w : UInt32) (count : UInt32) : UInt32 := w <<< count ||| w >>> (32 - count)

/-- Mix four words of a block. -/
def quarterRound (s : Block) (a b c d : Fin 16) : Block :=
  let s := s.put a (s.get a + s.get b)
  let s := s.put d (rotate (s.get d ^^^ s.get a) 16)
  let s := s.put c (s.get c + s.get d)
  let s := s.put b (rotate (s.get b ^^^ s.get c) 12)
  let s := s.put a (s.get a + s.get b)
  let s := s.put d (rotate (s.get d ^^^ s.get a) 8)
  let s := s.put c (s.get c + s.get d)
  s.put b (rotate (s.get b ^^^ s.get c) 7)

/-- Mix the columns and then the diagonals of a block. -/
def doubleRound (s : Block) : Block :=
  let s := quarterRound s 0 4 8 12
  let s := quarterRound s 1 5 9 13
  let s := quarterRound s 2 6 10 14
  let s := quarterRound s 3 7 11 15
  let s := quarterRound s 0 5 10 15
  let s := quarterRound s 1 6 11 12
  let s := quarterRound s 2 7 8 13
  quarterRound s 3 4 9 14

/-- The block before mixing: four constants, the key, the block's number in two words, and two
zeros. -/
def initial (key : Vector UInt32 8) (number : Nat) : Block :=
  #v[0x61707865, 0x3320646e, 0x79622d32, 0x6b206574,
    key[0], key[1], key[2], key[3], key[4], key[5], key[6], key[7],
    UInt32.ofNat number, UInt32.ofNat (number / UInt32.size), 0, 0]

/-- The block of a number: twelve rounds, and the words from before the mixing added. -/
def block (key : Vector UInt32 8) (number : Nat) : Block :=
  let start := initial key number
  Vector.zipWith (· + ·) (Nat.repeat doubleRound 6 start) start

/-- The word at a place of the stream. -/
def word (key : Vector UInt32 8) (place : Nat) : UInt32 :=
  (block key (place / 16))[place % 16]

/-- The next state of the counter that spreads a seed over the key. -/
def seedStep (state : UInt64) : UInt64 := state * 6364136223846793005 + 11634580027462260723

/-- The word that a state of that counter stands for. -/
def seedWord (state : UInt64) : UInt32 :=
  let folded := ((state >>> 18 ^^^ state) >>> 27).toUInt32
  let turn := (state >>> 59).toUInt32
  folded >>> turn ||| folded <<< (32 - turn)

/-- The state of that counter after a number of steps from a seed. -/
def seedState (seed : UInt64) (steps : Nat) : UInt64 := Nat.repeat seedStep steps seed

/-- The key of a seed. -/
def keyOfSeed (seed : UInt64) : Vector UInt32 8 :=
  Vector.ofFn fun i : Fin 8 => seedWord (seedState seed (i.val + 1))

end Keystream

/-- A generator of random words. -/
structure Keystream where
  /-- The key of the stream. -/
  key : Vector UInt32 8
  /-- How many words were drawn so far. -/
  drawn : Nat
  deriving DecidableEq

namespace Keystream

/-- The generator of a key, before the first word. -/
def ofKey (key : Vector UInt32 8) : Keystream := ⟨key, 0⟩

/-- The generator of a seed, before the first word. -/
def ofSeed (seed : UInt64) : Keystream := ofKey (keyOfSeed seed)

/-- The next word and the generator behind it. -/
def next (g : Keystream) : UInt32 × Keystream :=
  (word g.key g.drawn, { g with drawn := g.drawn + 1 })

end Keystream

end ChipEight
