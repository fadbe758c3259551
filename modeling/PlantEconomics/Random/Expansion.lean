/-!
# Expanding a seed

A 64-bit seed is spread over as many 32-bit words as a generator's state needs. A linear
congruential state advances once per word, and each word is the upper part of the state, mixed with
itself and rotated by an amount that the state's top bits choose.
-/

namespace PlantEconomics

namespace Random

/-- Factor of the congruential step. -/
def stepFactor : UInt64 := 6364136223846793005

/-- Increment of the congruential step. -/
def stepIncrement : UInt64 := 11634580027462260723

/-- The next congruential state. -/
def nextState (s : UInt64) : UInt64 := s * stepFactor + stepIncrement

/-- A word rotated to the right. -/
def rotateRight (x : UInt32) (by_ : UInt32) : UInt32 :=
  (x >>> by_) ||| (x <<< ((32 - by_) % 32))

/-- The word that a congruential state gives. -/
def outputWord (s : UInt64) : UInt32 :=
  rotateRight (((s >>> 18) ^^^ s) >>> 27).toUInt32 (s >>> 59).toUInt32

/-- The first `n` words of the expansion of a seed. -/
def seedWords (seed : UInt64) : Nat → List UInt32
  | 0 => []
  | n + 1 =>
    let s := nextState seed
    outputWord s :: seedWords s n

@[simp] theorem length_seedWords (seed : UInt64) (n : Nat) : (seedWords seed n).length = n := by
  induction n generalizing seed with
  | zero => rfl
  | succ n ih => simp [seedWords, ih]

end Random

end PlantEconomics
