/-!
# Finding primes

Primality by trial division with odd divisors, and the search for a prime in a range: upward from a start, and
then downward from it.
-/

namespace EntityForge

/-- Whether `d`, `d + 2`, `d + 4`, … has a divisor of `n` whose square is at most `n`. -/
def hasDivisorFrom (n d : Nat) : Bool :=
  if d * d ≤ n then
    if n % d = 0 then true else hasDivisorFrom n (d + 2)
  else false
termination_by n + 1 - d
decreasing_by
  have hd : d ≤ n := by
    rcases Nat.eq_zero_or_pos d with h | h
    · omega
    · exact Nat.le_trans (Nat.le_mul_of_pos_left d h) ‹d * d ≤ n›
  omega

/-- Whether a number is prime. -/
def isPrime (n : Nat) : Bool :=
  if n < 2 then false
  else if n % 2 = 0 then n == 2
  else !hasDivisorFrom n 3

/-- The least prime among the `count` numbers from `n` on. -/
def primeFrom (n : Nat) : Nat → Option Nat
  | 0 => none
  | count + 1 => if isPrime n then some n else primeFrom (n + 1) count

/-- The greatest prime that is at least `low` and below the given number. -/
def primeBelow (low : Nat) : Nat → Option Nat
  | 0 => none
  | n + 1 => if n < low then none else if isPrime n then some n else primeBelow low n

/-- A prime of `[low, high)`: the least one from `start` on, moved into the range, or else the greatest one before
it. -/
def primeInRange (start low high : Nat) : Option Nat :=
  let start := max low (min start (high - 1))
  match primeFrom start (high - start) with
  | some n => some n
  | none => primeBelow low start

/-- Why a search gives no answer. -/
inductive RangeFault where
  /-- The lower bound lies above every number that the start could be moved to. -/
  | inverted
  /-- A number that comes up in a trial is too large. -/
  | overflow
  deriving DecidableEq

/-- Searches `[low, high)` for a prime, provided that `low` is at most the last number below `high`. -/
def searchPrime (start low high : Nat) : Except RangeFault (Option Nat) :=
  if low ≤ high - 1 then .ok (primeInRange start low high) else .error .inverted

end EntityForge
