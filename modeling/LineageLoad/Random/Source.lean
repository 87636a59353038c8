/-!
Sources of random words, and the seeded generator that workloads draw from.
-/

namespace LineageLoad

/-- A source of words of 64 bits: each draw answers a word and the source after it. What a
generator promises holds for every source, whatever words it gives.
-/
class WordSource (γ : Type) where
  next : γ → UInt64 × γ

/-- A stream of given words is a source. -/
instance : WordSource (Nat → UInt64) where
  next words := (words 0, fun position => words (position + 1))

/-- A generator with 256 bits of state (xoshiro256++). -/
structure Xoshiro where
  s0 : UInt64
  s1 : UInt64
  s2 : UInt64
  s3 : UInt64
  deriving DecidableEq, Repr, Inhabited

namespace Xoshiro

/-- Rotates the bits of a word to the left. -/
def rotateLeft (word count : UInt64) : UInt64 :=
  (word <<< count) ||| (word >>> (64 - count))

/-- The next word and state. -/
def step (g : Xoshiro) : UInt64 × Xoshiro :=
  let word := rotateLeft (g.s0 + g.s3) 23 + g.s0
  let s2 := g.s2 ^^^ g.s0
  let s3 := g.s3 ^^^ g.s1
  (word,
    { s0 := g.s0 ^^^ s3
      s1 := g.s1 ^^^ s2
      s2 := s2 ^^^ (g.s1 <<< 17)
      s3 := rotateLeft s3 45 })

instance : WordSource Xoshiro := ⟨step⟩

/-- Scrambles a counter into a word of a seed (SplitMix64). -/
def scramble (counter : UInt64) : UInt64 :=
  let z := (counter ^^^ (counter >>> 30)) * 0xbf58476d1ce4e5b9
  let z := (z ^^^ (z >>> 27)) * 0x94d049bb133111eb
  z ^^^ (z >>> 31)

/-- The state that a seed gives: four words from equally spaced counters. -/
def ofSeed (seed : UInt64) : Xoshiro :=
  let counter (k : UInt64) := seed + k * 0x9e3779b97f4a7c15
  ⟨scramble (counter 1), scramble (counter 2), scramble (counter 3), scramble (counter 4)⟩

end Xoshiro

end LineageLoad
