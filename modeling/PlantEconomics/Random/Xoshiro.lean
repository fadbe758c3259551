import PlantEconomics.Powers
import PlantEconomics.Random.Expansion

/-!
# A generator for choices

The choices inside one clustering run come from a small generator: four 64-bit words, each number
a rotated sum of two of them. From its numbers come a whole number below a bound, every one equally
likely, and a fraction of the unit interval.
-/

namespace PlantEconomics

namespace Random

/-! ## §1. The generator -/

/-- The state of the generator. -/
structure Chooser where
  s0 : UInt64
  s1 : UInt64
  s2 : UInt64
  s3 : UInt64
deriving DecidableEq

/-- Two words as one number, the low one first. -/
def joinWords (low high : UInt32) : UInt64 := low.toUInt64 ||| (high.toUInt64 <<< 32)

/-- The generator that belongs to a seed. -/
def Chooser.ofSeed (seed : UInt64) : Chooser :=
  match seedWords seed 8 with
  | [a, b, c, d, e, f, g, h] =>
    ⟨joinWords a b, joinWords c d, joinWords e f, joinWords g h⟩
  | _ => ⟨0, 0, 0, 0⟩

/-- A 64-bit word rotated to the left. -/
def rotateLeft64 (x : UInt64) (by_ : UInt64) : UInt64 := (x <<< by_) ||| (x >>> (64 - by_))

/-- Draw the next number. -/
def Chooser.next (g : Chooser) : UInt64 × Chooser :=
  let result := rotateLeft64 (g.s0 + g.s3) 23 + g.s0
  let t := g.s1 <<< 17
  let s2 := g.s2 ^^^ g.s0
  let s3 := g.s3 ^^^ g.s1
  (result, ⟨g.s0 ^^^ s3, g.s1 ^^^ s2, s2 ^^^ t, rotateLeft64 s3 45⟩)

/-! ## §2. Choices -/

/-- Number of draws after which a choice is no longer redrawn. Each draw is accepted with
probability at least one half. -/
def drawLimit : Nat := 1024

/-- Zeros in front of the leading bit of a 64-bit number. -/
def leadingZeros (n : Nat) : Nat := if n == 0 then 64 else 63 - n.log2

/-- A number below `n`: a draw `v` stands for the whole part of `v * n / 2 ^ 64`, and draws whose
remainder exceeds `zone` are thrown away to make all choices equally likely. -/
def belowWithin (n zone : Nat) : Nat → Chooser → Nat × Chooser
  | 0, g => (0, g)
  | fuel + 1, g =>
    let (v, g') := g.next
    let product := v.toNat * n
    if product % twoTo 64 ≤ zone then (product / twoTo 64, g') else belowWithin n zone fuel g'

/-- A number below `n`. -/
def Chooser.below (g : Chooser) (n : Nat) : Nat × Chooser :=
  belowWithin n (n * twoTo (leadingZeros n) % twoTo 64 - 1) drawLimit g

/-- A multiple of `2 ^ -53` in the unit interval. -/
def Chooser.unit (g : Chooser) : Float × Chooser :=
  let (v, g') := g.next
  (Float.ofNat (v >>> 11).toNat * (1.0 / 9007199254740992.0), g')

end Random

end PlantEconomics
