import EntityForge.Primes.Search
import Mathlib.Data.Nat.Prime.Basic
import Mathlib.Order.Bounds.Basic

/-!
# The search for primes

Trial division by odd divisors finds out whether a number is prime, since the least divisor of a number that is not
prime has a square of at most the number. A search upward gives the least prime of its numbers and a search downward
the greatest one, so both together miss no prime of a range (`primeInRange_eq_none_iff`).
-/

namespace EntityForge

/-! ## Trial division -/

/-- Trial division from `d` on finds a divisor when there is one in steps of two whose square is at most the number. -/
theorem hasDivisorFrom_iff {n d : ℕ} :
    hasDivisorFrom n d = true ↔ ∃ e, d ≤ e ∧ e % 2 = d % 2 ∧ e * e ≤ n ∧ e ∣ n := by
  fun_induction hasDivisorFrom n d with
  | case1 d hsquare hdivides => exact iff_of_true rfl ⟨d, le_rfl, rfl, hsquare, Nat.dvd_of_mod_eq_zero hdivides⟩
  | case2 d hsquare hdivides ih =>
    rw [ih]
    constructor
    · rintro ⟨e, hle, hparity, he⟩
      exact ⟨e, by omega, by omega, he⟩
    · rintro ⟨e, hle, hparity, hesquare, hdvd⟩
      have hne : e ≠ d := by
        rintro rfl
        exact hdivides (Nat.mod_eq_zero_of_dvd hdvd)
      exact ⟨e, by omega, by omega, hesquare, hdvd⟩
  | case3 d hsquare =>
    refine iff_of_false Bool.false_ne_true ?_
    rintro ⟨e, hle, -, hesquare, -⟩
    exact hsquare (le_trans (Nat.mul_le_mul hle hle) hesquare)

/-- An odd number is not prime exactly when an odd number from three on divides it and has a square of at most it. -/
theorem not_prime_iff_of_odd {n : ℕ} (htwo : 2 ≤ n) (hodd : n % 2 = 1) :
    ¬n.Prime ↔ ∃ e, 3 ≤ e ∧ e % 2 = 1 ∧ e * e ≤ n ∧ e ∣ n := by
  constructor
  · intro hprime
    have hleast : n.minFac.Prime := Nat.minFac_prime (by omega)
    have hsquare : n.minFac * n.minFac ≤ n := by
      rw [← pow_two]
      exact Nat.minFac_sq_le_self (by omega) hprime
    obtain ⟨k, hk⟩ := Nat.minFac_dvd n
    have hparity : n.minFac % 2 = 1 := by
      rcases Nat.mod_two_eq_zero_or_one n.minFac with heven | hodd'
      · have hn : n % 2 = 0 := by
          rw [hk, Nat.mul_mod, heven, Nat.zero_mul, Nat.zero_mod]
        omega
      · exact hodd'
    have := hleast.two_le
    exact ⟨n.minFac, by omega, hparity, hsquare, Nat.minFac_dvd n⟩
  · rintro ⟨e, hthree, -, hsquare, hdvd⟩ hprime
    rcases (Nat.dvd_prime hprime).mp hdvd with rfl | rfl
    · omega
    · have : e * 1 < e * e := Nat.mul_lt_mul_of_pos_left (by omega) (by omega)
      omega

/-- Two is the only even prime. -/
theorem prime_iff_of_even {n : ℕ} (heven : n % 2 = 0) : n.Prime ↔ n = 2 := by
  constructor
  · intro hprime
    exact (hprime.eq_one_or_self_of_dvd 2 (Nat.dvd_of_mod_eq_zero heven)).resolve_left (by omega) |>.symm
  · rintro rfl
    exact Nat.prime_two

/-- A number is found to be prime exactly when it is. -/
theorem isPrime_iff {n : ℕ} : isPrime n = true ↔ n.Prime := by
  unfold isPrime
  split
  · next hsmall => exact iff_of_false Bool.false_ne_true fun hprime => absurd hprime.two_le (by omega)
  split
  · next heven => rw [beq_iff_eq, prime_iff_of_even heven]
  · next htwo hodd =>
    have hdivided := not_prime_iff_of_odd (n := n) (by omega) (by omega)
    rw [Bool.not_eq_true', ← Bool.not_eq_true, hasDivisorFrom_iff, ← hdivided, not_not]

/-! ## Searching a range -/

/-- The search upward gives the least prime of its numbers. -/
theorem primeFrom_eq_some_iff {n count p : ℕ} :
    primeFrom n count = some p ↔ IsLeast {q | n ≤ q ∧ q < n + count ∧ q.Prime} p := by
  induction count generalizing n with
  | zero =>
    refine iff_of_false (by simp [primeFrom]) ?_
    rintro ⟨⟨hle, hlt, -⟩, -⟩
    omega
  | succ count ih =>
    unfold primeFrom
    split
    · next hprime =>
      have hleast : IsLeast {q | n ≤ q ∧ q < n + (count + 1) ∧ q.Prime} n :=
        ⟨⟨le_rfl, by omega, isPrime_iff.mp hprime⟩, fun _ hq => hq.1⟩
      rw [Option.some.injEq]
      exact ⟨fun h => h ▸ hleast, fun h => hleast.unique h⟩
    · next hnot =>
      -- A number that is not prime may be left out.
      have hset : {q | n ≤ q ∧ q < n + (count + 1) ∧ q.Prime} = {q | n + 1 ≤ q ∧ q < n + 1 + count ∧ q.Prime} := by
        ext q
        have hne : q.Prime → q ≠ n := by
          rintro hq rfl
          exact hnot (isPrime_iff.mpr hq)
        exact ⟨fun ⟨hle, hlt, hq⟩ => ⟨by have := hne hq; omega, by omega, hq⟩,
          fun ⟨hle, hlt, hq⟩ => ⟨by omega, by omega, hq⟩⟩
      rw [ih, hset]

/-- The search upward gives nothing exactly when none of its numbers is prime. -/
theorem primeFrom_eq_none_iff {n count : ℕ} :
    primeFrom n count = none ↔ ∀ q, n ≤ q → q < n + count → ¬q.Prime := by
  induction count generalizing n with
  | zero => exact iff_of_true rfl fun q hle hlt => by omega
  | succ count ih =>
    unfold primeFrom
    split
    · next hprime =>
      exact iff_of_false (by simp) fun hnone => hnone n le_rfl (by omega) (isPrime_iff.mp hprime)
    · next hnot =>
      rw [isPrime_iff] at hnot
      rw [ih]
      refine ⟨fun hnone q hle hlt => ?_, fun hnone q hle hlt => hnone q (by omega) (by omega)⟩
      rcases Nat.eq_or_lt_of_le hle with rfl | hlater
      · exact hnot
      · exact hnone q hlater (by omega)

/-- The search downward gives the greatest prime of its numbers. -/
theorem primeBelow_eq_some_iff {low n p : ℕ} :
    primeBelow low n = some p ↔ IsGreatest {q | low ≤ q ∧ q < n ∧ q.Prime} p := by
  induction n with
  | zero =>
    refine iff_of_false (by simp [primeBelow]) ?_
    rintro ⟨⟨-, hlt, -⟩, -⟩
    omega
  | succ n ih =>
    unfold primeBelow
    split
    · next hlow =>
      refine iff_of_false (by simp) ?_
      rintro ⟨⟨hle, hlt, -⟩, -⟩
      omega
    split
    · next hlow hprime =>
      have hgreatest : IsGreatest {q | low ≤ q ∧ q < n + 1 ∧ q.Prime} n :=
        ⟨⟨by omega, by omega, isPrime_iff.mp hprime⟩, fun _ hq => Nat.le_of_lt_succ hq.2.1⟩
      rw [Option.some.injEq]
      exact ⟨fun h => h ▸ hgreatest, fun h => hgreatest.unique h⟩
    · next hnot =>
      have hset : {q | low ≤ q ∧ q < n + 1 ∧ q.Prime} = {q | low ≤ q ∧ q < n ∧ q.Prime} := by
        ext q
        have hne : q.Prime → q ≠ n := by
          rintro hq rfl
          exact hnot (isPrime_iff.mpr hq)
        exact ⟨fun ⟨hle, hlt, hq⟩ => ⟨hle, by have := hne hq; omega, hq⟩,
          fun ⟨hle, hlt, hq⟩ => ⟨hle, by omega, hq⟩⟩
      rw [ih, hset]

/-- The search downward gives nothing exactly when none of its numbers is prime. -/
theorem primeBelow_eq_none_iff {low n : ℕ} :
    primeBelow low n = none ↔ ∀ q, low ≤ q → q < n → ¬q.Prime := by
  induction n with
  | zero => exact iff_of_true rfl fun q _ hlt => by omega
  | succ n ih =>
    unfold primeBelow
    split
    · next hlow => exact iff_of_true rfl fun q hle hlt => by omega
    split
    · next hlow hprime =>
      exact iff_of_false (by simp) fun hnone => hnone n (by omega) (by omega) (isPrime_iff.mp hprime)
    · next hnot =>
      rw [isPrime_iff] at hnot
      rw [ih]
      refine ⟨fun hnone q hle hlt => ?_, fun hnone q hle hlt => hnone q hle (by omega)⟩
      rcases Nat.eq_or_lt_of_le (Nat.le_of_lt_succ hlt) with rfl | hearlier
      · exact hnot
      · exact hnone q hle hearlier

/-- What is found in a range is a prime of the range. -/
theorem prime_of_primeInRange_eq_some {start low high p : ℕ} (h : primeInRange start low high = some p) :
    p.Prime ∧ low ≤ p ∧ p < high := by
  unfold primeInRange at h
  simp only at h
  split at h
  · next hup =>
    cases h
    obtain ⟨⟨hle, hlt, hprime⟩, -⟩ := primeFrom_eq_some_iff.mp hup
    exact ⟨hprime, by omega, by omega⟩
  · obtain ⟨⟨hle, hlt, hprime⟩, -⟩ := primeBelow_eq_some_iff.mp h
    exact ⟨hprime, hle, by omega⟩

/-- Nothing is found in a range exactly when it has no prime. -/
theorem primeInRange_eq_none_iff {start low high : ℕ} :
    primeInRange start low high = none ↔ ∀ q, low ≤ q → q < high → ¬q.Prime := by
  constructor
  · intro h q hle hlt
    unfold primeInRange at h
    simp only at h
    split at h
    · exact absurd h (by simp)
    · next hup =>
      -- Both searches together cover the range.
      by_cases hstart : max low (min start (high - 1)) ≤ q
      · exact primeFrom_eq_none_iff.mp hup q hstart (by omega)
      · exact primeBelow_eq_none_iff.mp h q hle (by omega)
  · intro hnone
    cases hfound : primeInRange start low high with
    | none => rfl
    | some p =>
      obtain ⟨hprime, hle, hlt⟩ := prime_of_primeInRange_eq_some hfound
      exact absurd hprime (hnone p hle hlt)

end EntityForge
