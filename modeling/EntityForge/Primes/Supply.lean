import EntityForge.Primes.Search
import EntityForge.Primes.WordStream
import EntityForge.Synthesis.Method

/-!
# Supplies of primes

Every hash code takes a seed and a multiplier from a supply of pairs. A supply may give the same pair always, draw
pairs from a seed, hand out listed pairs, or give the first pair of another supply again and again.
-/

namespace EntityForge

/-- Something that gives pairs of primes one after the other. -/
class PrimeSource (σ : Type) where
  next : σ → PrimePair × σ

namespace PrimePair

/-- The pair that is used where no other is drawn. -/
def standard : PrimePair :=
  { seed := 7, multiplier := 31 }

/-- The pair drawn from the words at a position, and the position after it: a seed of [2, 10) and then a
multiplier of [10, 100), each the prime found from a number of its range. -/
def drawn (key : UInt64) (position : Nat) : PrimePair × Nat :=
  let (seedStart, position) := WordStream.draw key 2 10 position
  let (multiplierStart, position) := WordStream.draw key 10 100 position
  ({ seed := (primeInRange seedStart 2 10).getD standard.seed
     multiplier := (primeInRange multiplierStart 10 100).getD standard.multiplier }, position)

end PrimePair

/-- A supply of pairs of primes. -/
inductive PrimeSupply where
  /-- The same pair always. -/
  | fixed (pair : PrimePair)
  /-- Pairs drawn from the words of a seed, from a position on. -/
  | seeded (key : UInt64) (position : Nat)
  /-- The listed pairs, and then the last one again and again; without any, the standard pair. -/
  | listed (pairs : List PrimePair)
  /-- The first pair of another supply, which is drawn when it is first asked for. -/
  | shared (first : Option PrimePair) (source : PrimeSupply)

namespace PrimeSupply

/-- The next pair, and what is left. -/
def next : PrimeSupply → PrimePair × PrimeSupply
  | .fixed pair => (pair, .fixed pair)
  | .seeded key position =>
    let (pair, position) := PrimePair.drawn key position
    (pair, .seeded key position)
  | .listed [] => (.standard, .listed [])
  | .listed [pair] => (pair, .listed [pair])
  | .listed (pair :: rest) => (pair, .listed rest)
  | .shared (some pair) source => (pair, .shared (some pair) source)
  | .shared none source =>
    let (pair, source) := source.next
    (pair, .shared (some pair) source)

instance : PrimeSource PrimeSupply where
  next := next

end PrimeSupply

/-- A supply and how many pairs have been drawn from it. -/
structure Counted (σ : Type) where
  source : σ
  drawn : Nat

instance {σ : Type} [PrimeSource σ] : PrimeSource (Counted σ) where
  next counted :=
    let (pair, source) := PrimeSource.next counted.source
    (pair, { source, drawn := counted.drawn + 1 })

/-- The first `count` pairs of a supply, and what is left. -/
def takePairs {σ : Type} [PrimeSource σ] : Nat → σ → List PrimePair × σ
  | 0, source => ([], source)
  | count + 1, source =>
    let (pair, source) := PrimeSource.next source
    let (pairs, source) := takePairs count source
    (pair :: pairs, source)

end EntityForge
