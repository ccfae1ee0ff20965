import EntityForge.Primes.Search

/-!
# Trial division in words

The search for primes as it goes in words of 32 bits. The square of a divisor, or the divisor after it, may be too large
for a word. Trial division has no answer then, and the search that has come to such a number fails.
-/

namespace EntityForge

/-! ## Checked arithmetic -/

/-- The product of two words, if it is a word. -/
def product? (a b : UInt32) : Option UInt32 :=
  if a.toNat * b.toNat < UInt32.size then some (a * b) else none

/-- The sum of two words, if it is a word. -/
def sum? (a b : UInt32) : Option UInt32 :=
  if a.toNat + b.toNat < UInt32.size then some (a + b) else none

/-- Numbers with a small product have a product in words. -/
theorem product?_of_lt {a b : UInt32} (h : a.toNat * b.toNat < UInt32.size) :
    ∃ c, product? a b = some c ∧ c.toNat = a.toNat * b.toNat :=
  ⟨a * b, if_pos h, by rw [UInt32.toNat_mul, Nat.mod_eq_of_lt h]⟩

/-- Numbers with a small sum have a sum in words. -/
theorem sum?_of_lt {a b : UInt32} (h : a.toNat + b.toNat < UInt32.size) :
    ∃ c, sum? a b = some c ∧ c.toNat = a.toNat + b.toNat :=
  ⟨a + b, if_pos h, by rw [UInt32.toNat_add, Nat.mod_eq_of_lt h]⟩

/-! ## The trial of a number -/

/-- Where the trial of a number stands. -/
inductive Trial where
  /-- The divisor is tried next. -/
  | trying (divisor : UInt32)
  /-- It is known whether the number is prime. -/
  | decided (prime : Bool)
  /-- A number is too large for a word. -/
  | overflowed
  deriving DecidableEq

namespace Trial

/-- Where the trial of `n` starts: small numbers and even ones are decided at once. -/
def start (n : UInt32) : Trial :=
  if n < 2 then .decided false
  else if n % 2 = 0 then .decided (n == 2)
  else .trying 3

/-- One round. The number is decided when the square of the divisor exceeds it or the divisor divides it; otherwise
the next odd number is tried. -/
def attempt (n divisor : UInt32) : Trial :=
  match product? divisor divisor with
  | none => .overflowed
  | some square =>
    if square ≤ n then
      if n % divisor = 0 then .decided false
      else
        match sum? divisor 2 with
        | none => .overflowed
        | some next => .trying next
    else .decided true

/-- What the trial of `n` does next; a trial that is over stays as it is. -/
def step (n : UInt32) : Trial → Trial
  | .trying divisor => attempt n divisor
  | .decided prime => .decided prime
  | .overflowed => .overflowed

/-- How many words lie above the divisor that is tried. -/
def room : Trial → Nat
  | .trying divisor => UInt32.size - divisor.toNat
  | .decided _ => 0
  | .overflowed => 0

/-- What a round leads to, in numbers. -/
inductive Round (n divisor : UInt32) : Trial → Prop
  | overflow (hlarge : UInt32.size ≤ divisor.toNat * divisor.toNat) : Round n divisor .overflowed
  | prime (hfits : divisor.toNat * divisor.toNat < UInt32.size)
      (hsquare : n.toNat < divisor.toNat * divisor.toNat) : Round n divisor (.decided true)
  | composite (hsquare : divisor.toNat * divisor.toNat ≤ n.toNat) (hdvd : divisor.toNat ∣ n.toNat) :
      Round n divisor (.decided false)
  | next {next : UInt32} (hnext : next.toNat = divisor.toNat + 2)
      (hsquare : divisor.toNat * divisor.toNat ≤ n.toNat) (hdvd : ¬divisor.toNat ∣ n.toNat) :
      Round n divisor (.trying next)

/-- A round fails only at its square: a divisor whose square is a word has a word after it. -/
theorem round_attempt (n divisor : UInt32) : Round n divisor (attempt n divisor) := by
  by_cases hfits : divisor.toNat * divisor.toNat < UInt32.size
  · obtain ⟨square, hproduct, hsquare⟩ := product?_of_lt hfits
    have hdivides : n % divisor = 0 ↔ divisor.toNat ∣ n.toNat := by
      rw [← UInt32.toNat_inj, UInt32.toNat_mod, Nat.dvd_iff_mod_eq_zero]
      rfl
    simp only [attempt, hproduct, UInt32.le_iff_toNat_le, hsquare, hdivides]
    split
    · next hle =>
      split
      · next hdvd => exact .composite hle hdvd
      · next hdvd =>
        have hroot : divisor.toNat < 65536 := Nat.mul_self_lt_mul_self_iff.mp hfits
        have hsum : divisor.toNat + (2 : UInt32).toNat < UInt32.size :=
          Nat.lt_trans (Nat.add_lt_add_right hroot 2) (by decide)
        obtain ⟨next, hadded, hnext⟩ := sum?_of_lt hsum
        simp only [hadded]
        exact .next hnext hle hdvd
    · next hlt => exact .prime hfits (Nat.not_le.mp hlt)
  · have hproduct : product? divisor divisor = none := if_neg hfits
    simp only [attempt, hproduct]
    exact .overflow (Nat.not_lt.mp hfits)

/-- Each round takes room. -/
theorem room_attempt_lt {n divisor : UInt32} : (attempt n divisor).room < (Trial.trying divisor).room := by
  have hword : divisor.toNat < UInt32.size := divisor.toNat_lt
  have hround := round_attempt n divisor
  generalize attempt n divisor = trial at hround
  cases hround with
  | next hnext _ _ =>
    simp only [room]
    omega
  | overflow _ | prime _ _ | composite _ _ =>
    simp only [room]
    omega

/-- Whether the number is prime, known after all rounds; nothing when a number was too large for a word. -/
def outcome (n : UInt32) : Trial → Option Bool
  | .trying divisor => outcome n (attempt n divisor)
  | .decided prime => some prime
  | .overflowed => none
termination_by trial => trial.room
decreasing_by exact room_attempt_lt

end Trial

/-- Whether a word is prime, as trial division finds out in words. -/
def isPrimeWord? (n : UInt32) : Option Bool :=
  (Trial.start n).outcome n

/-! ## The search in a range -/

/-- The word after one that is less than another word. -/
theorem toNat_add_one_of_lt {n high : UInt32} (h : n < high) : (n + 1).toNat = n.toNat + 1 := by
  have hlt : n.toNat < high.toNat := UInt32.lt_iff_toNat_lt.mp h
  have hfits : n.toNat + (1 : UInt32).toNat < UInt32.size := Nat.lt_of_le_of_lt hlt (UInt32.toNat_lt high)
  rw [UInt32.toNat_add, Nat.mod_eq_of_lt hfits]
  rfl

/-- The word before one that is greater than another word. -/
theorem toNat_sub_one_of_lt {low n : UInt32} (h : low < n) : (n - 1).toNat = n.toNat - 1 := by
  have hlt : low.toNat < n.toNat := UInt32.lt_iff_toNat_lt.mp h
  exact UInt32.toNat_sub_of_le n 1 (UInt32.le_iff_toNat_le.mpr (Nat.one_le_of_lt hlt))

/-- The least prime among the words from `n` on and below `high`. -/
def primeWordFrom (n high : UInt32) : Except RangeFault (Option UInt32) :=
  if n < high then
    match isPrimeWord? n with
    | none => .error .overflow
    | some true => .ok (some n)
    | some false => primeWordFrom (n + 1) high
  else .ok none
termination_by high.toNat - n.toNat
decreasing_by
  have hlt : n.toNat < high.toNat := UInt32.lt_iff_toNat_lt.mp ‹n < high›
  have hnext : (n + 1).toNat = n.toNat + 1 := toNat_add_one_of_lt ‹n < high›
  omega

/-- The greatest prime among the words that are at least `low` and below `n`. -/
def primeWordBelow (low n : UInt32) : Except RangeFault (Option UInt32) :=
  if low < n then
    match isPrimeWord? (n - 1) with
    | none => .error .overflow
    | some true => .ok (some (n - 1))
    | some false => primeWordBelow low (n - 1)
  else .ok none
termination_by n.toNat
decreasing_by
  have hlt : low.toNat < n.toNat := UInt32.lt_iff_toNat_lt.mp ‹low < n›
  have hprevious : (n - 1).toNat = n.toNat - 1 := toNat_sub_one_of_lt ‹low < n›
  omega

/-- Searches `[low, high)` for a prime: upward from `start`, moved into the range, and then downward from it. -/
def searchPrimeWord (start low high : UInt32) : Except RangeFault (Option UInt32) :=
  let last := if high = 0 then 0 else high - 1
  if low ≤ last then
    let start := max low (min start last)
    match primeWordFrom start high with
    | .ok none => primeWordBelow low start
    | found => found
  else .error .inverted

end EntityForge
