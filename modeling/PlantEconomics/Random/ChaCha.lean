import PlantEconomics.Random.Expansion

/-!
# A stream of seeds

Restarts of a clustering are seeded from one stream of 64-bit numbers. The stream is the keystream
of the ChaCha block function with twelve rounds, a key expanded from a seed, a block counter from
zero and no nonce; each number is two successive words, the low one first.

A `SeedStream` is a key and a count of numbers already drawn, so that drawing is a function of the
two and nothing is hidden.
-/

namespace PlantEconomics

namespace Random

/-! ## §1. The block function -/

/-- The sixteen words that a block is computed from. -/
abbrev Block := Vector UInt32 16

/-- A word rotated to the left. -/
def rotateLeft (x : UInt32) (by_ : UInt32) : UInt32 :=
  (x <<< by_) ||| (x >>> (32 - by_))

/-- One quarter round on the words at four positions. -/
def quarterRound (s : Block) (a b c d : Fin 16) : Block :=
  let s := s.set a (s[a] + s[b])
  let s := s.set d (rotateLeft (s[d] ^^^ s[a]) 16)
  let s := s.set c (s[c] + s[d])
  let s := s.set b (rotateLeft (s[b] ^^^ s[c]) 12)
  let s := s.set a (s[a] + s[b])
  let s := s.set d (rotateLeft (s[d] ^^^ s[a]) 8)
  let s := s.set c (s[c] + s[d])
  s.set b (rotateLeft (s[b] ^^^ s[c]) 7)

/-- A round on the columns followed by a round on the diagonals. -/
def doubleRound (s : Block) : Block :=
  let s := quarterRound s 0 4 8 12
  let s := quarterRound s 1 5 9 13
  let s := quarterRound s 2 6 10 14
  let s := quarterRound s 3 7 11 15
  let s := quarterRound s 0 5 10 15
  let s := quarterRound s 1 6 11 12
  let s := quarterRound s 2 7 8 13
  quarterRound s 3 4 9 14

/-- Apply a function `n` times. -/
def times {β : Type} (f : β → β) : Nat → β → β
  | 0, x => x
  | n + 1, x => times f n (f x)

/-- The words of a block: the start state plus its image after twelve rounds. -/
def keystreamBlock (start : Block) : Block :=
  Vector.zipWith (· + ·) start (times doubleRound 6 start)

/-! ## §2. The stream -/

/-- Eight words of key. -/
abbrev Key := Vector UInt32 8

/-- The four words that every block starts with. -/
def constantWords : Vector UInt32 4 := #v[0x61707865, 0x3320646e, 0x79622d32, 0x6b206574]

/-- The block counter as two words, the low one first, and an empty nonce. -/
def counterWords (counter : UInt64) : Vector UInt32 4 :=
  #v[counter.toUInt32, (counter >>> 32).toUInt32, 0, 0]

/-- The start state of a block: the constants, the key, the counter and the nonce. -/
def startState (key : Key) (counter : UInt64) : Block :=
  constantWords ++ key ++ counterWords counter

/-- A source of 64-bit numbers: a key and how many numbers have been drawn. -/
structure SeedStream where
  key : Key
  drawn : Nat
deriving DecidableEq

/-- The stream that belongs to a seed, from its start. -/
def SeedStream.ofSeed (seed : UInt64) : SeedStream :=
  ⟨⟨(seedWords seed 8).toArray, by simp⟩, 0⟩

/-- The number at a position of the stream of a key. -/
def SeedStream.at_ (key : Key) (position : Nat) : UInt64 :=
  let block := keystreamBlock (startState key (UInt64.ofNat (position / 8)))
  let low := block.get ⟨2 * (position % 8), by omega⟩
  let high := block.get ⟨2 * (position % 8) + 1, by omega⟩
  low.toUInt64 ||| (high.toUInt64 <<< 32)

/-- Draw the next number. -/
def SeedStream.next (s : SeedStream) : UInt64 × SeedStream :=
  (SeedStream.at_ s.key s.drawn, { s with drawn := s.drawn + 1 })

@[simp] theorem SeedStream.next_drawn (s : SeedStream) : s.next.2.drawn = s.drawn + 1 := rfl

@[simp] theorem SeedStream.next_key (s : SeedStream) : s.next.2.key = s.key := rfl

end Random

end PlantEconomics
