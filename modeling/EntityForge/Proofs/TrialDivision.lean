import EntityForge.Primes.TrialDivision
import EntityForge.Proofs.PrimeSearch
import Mathlib.Logic.Function.Iterate

/-!
# Trial division stays in words

When the trial of a number comes to a divisor, no smaller odd number from three on divides the number, and the divisor
before it has a square of at most the number (`Trial.Reaches`). So what is decided is right, and a square is too large
for a word only after 65535 has been tried in vain, which takes an odd number that is at least the square of 65535
(`isPrimeWord?_eq_none_iff`).

Main statement: `trial_division_stays_in_words`.
-/

namespace EntityForge

namespace Trial

variable {n divisor : UInt32}

/-! ## What a round preserves -/

/-- The trial of `n` needs larger words: `n` is odd, at least the square of 65535, and divided by no odd number from 3
to 65535. -/
def Exceeds (n : UInt32) : Prop :=
  n.toNat % 2 = 1 ∧ 65535 * 65535 ≤ n.toNat ∧ ∀ e, 3 ≤ e → e ≤ 65535 → e % 2 = 1 → ¬e ∣ n.toNat

/-- What is known when the trial of `n` comes to a divisor. -/
structure Reaches (n divisor : UInt32) : Prop where
  two_le : 2 ≤ n.toNat
  odd : n.toNat % 2 = 1
  three_le : 3 ≤ divisor.toNat
  divisor_odd : divisor.toNat % 2 = 1
  /-- The divisor before this one was small enough to be tried. -/
  square_le : (divisor.toNat - 2) * (divisor.toNat - 2) ≤ n.toNat
  not_dvd : ∀ e, 3 ≤ e → e < divisor.toNat → e % 2 = 1 → ¬e ∣ n.toNat

/-- What holds wherever the trial of `n` stands. -/
def Holds (n : UInt32) : Trial → Prop
  | .trying divisor => Reaches n divisor
  | .decided prime => (prime = true ↔ n.toNat.Prime) ∧ ¬Exceeds n
  | .overflowed => Exceeds n

/-- A divisor is at most two greater than the root of the number. -/
theorem Reaches.lt_of_lt_mul_self (h : Reaches n divisor) {bound : ℕ} (hbound : n.toNat < bound * bound) :
    divisor.toNat < bound + 2 := by
  have hroot : divisor.toNat - 2 < bound := Nat.mul_self_lt_mul_self_iff.mp (lt_of_le_of_lt h.square_le hbound)
  omega

/-- No divisor is greater than 65537, the first odd number whose square is no word. -/
theorem Reaches.le_65537 (h : Reaches n divisor) : divisor.toNat ≤ 65537 := by
  have hword : n.toNat < 65536 * 65536 := n.toNat_lt
  have := h.lt_of_lt_mul_self hword
  omega

/-- The number is composite when the divisor divides it. -/
theorem Reaches.not_prime (h : Reaches n divisor) (hsquare : divisor.toNat * divisor.toNat ≤ n.toNat)
    (hdvd : divisor.toNat ∣ n.toNat) : ¬n.toNat.Prime :=
  (not_prime_iff_of_odd h.two_le h.odd).mpr ⟨divisor.toNat, h.three_le, h.divisor_odd, hsquare, hdvd⟩

/-- The number is prime when the square of the divisor exceeds it. -/
theorem Reaches.prime (h : Reaches n divisor) (hsquare : n.toNat < divisor.toNat * divisor.toNat) :
    n.toNat.Prime := by
  by_contra hprime
  obtain ⟨e, hthree, hodd, hesquare, hdvd⟩ := (not_prime_iff_of_odd h.two_le h.odd).mp hprime
  have hlt : e < divisor.toNat := Nat.mul_self_lt_mul_self_iff.mp (lt_of_le_of_lt hesquare hsquare)
  exact h.not_dvd e hthree hlt hodd hdvd

/-- A divisor that was tried in vain is followed by the next odd number. -/
theorem Reaches.next (h : Reaches n divisor) {next : UInt32} (hnext : next.toNat = divisor.toNat + 2)
    (hsquare : divisor.toNat * divisor.toNat ≤ n.toNat) (hdvd : ¬divisor.toNat ∣ n.toNat) : Reaches n next where
  two_le := h.two_le
  odd := h.odd
  three_le := by
    have := h.three_le
    omega
  divisor_odd := by
    have := h.divisor_odd
    omega
  square_le := by rwa [hnext, Nat.add_sub_cancel]
  not_dvd e hthree hlt hodd := by
    have := h.divisor_odd
    rcases Nat.lt_trichotomy e divisor.toNat with hless | rfl | hgreater
    · exact h.not_dvd e hthree hless hodd
    · exact hdvd
    · exfalso
      omega

/-- A square that is too large for a word is that of 65537. -/
theorem Reaches.exceeds (h : Reaches n divisor) (hlarge : UInt32.size ≤ divisor.toNat * divisor.toNat) :
    Exceeds n := by
  have hle : 65536 ≤ divisor.toNat := Nat.mul_self_le_mul_self_iff.mp hlarge
  have hdivisor : divisor.toNat = 65537 := by
    have := h.le_65537
    have := h.divisor_odd
    omega
  have hsquare := h.square_le
  rw [hdivisor] at hsquare
  exact ⟨h.odd, hsquare, fun e hthree hle' => h.not_dvd e hthree (by omega)⟩

theorem mod_two_eq_zero_iff : n % 2 = 0 ↔ n.toNat % 2 = 0 := by
  rw [← UInt32.toNat_inj, UInt32.toNat_mod]
  rfl

/-- What holds where a trial starts. -/
theorem holds_start (n : UInt32) : Holds n (start n) := by
  simp only [start, UInt32.lt_iff_toNat_lt, mod_two_eq_zero_iff]
  split
  · next hsmall =>
    have hsmall : n.toNat < 2 := hsmall
    refine ⟨iff_of_false Bool.false_ne_true fun hprime => ?_, fun ⟨_, hlarge, _⟩ => by omega⟩
    have := hprime.two_le
    omega
  split
  · next heven =>
    refine ⟨?_, fun ⟨hodd, _⟩ => by omega⟩
    rw [prime_iff_of_even heven, beq_iff_eq, ← UInt32.toNat_inj]
    rfl
  · next hlarge hodd =>
    have htwo : 2 ≤ n.toNat := Nat.not_lt.mp hlarge
    exact
      { two_le := htwo
        odd := by omega
        three_le := le_rfl
        divisor_odd := rfl
        square_le := le_trans (by decide) htwo
        not_dvd := fun e hthree hlt => absurd hlt (Nat.not_lt.mpr hthree) }

/-- A round preserves what holds. -/
theorem holds_attempt (h : Reaches n divisor) : Holds n (attempt n divisor) := by
  have hround := round_attempt n divisor
  generalize attempt n divisor = trial at hround
  cases hround with
  | overflow hlarge => exact h.exceeds hlarge
  | prime hfits hsquare =>
    refine ⟨iff_of_true rfl (h.prime hsquare), fun ⟨_, hlarge, _⟩ => ?_⟩
    have hroot : divisor.toNat < 65536 := Nat.mul_self_lt_mul_self_iff.mp hfits
    have hgreater : 65535 < divisor.toNat := Nat.mul_self_lt_mul_self_iff.mp (lt_of_le_of_lt hlarge hsquare)
    omega
  | composite hsquare hdvd =>
    refine ⟨iff_of_false Bool.false_ne_true (h.not_prime hsquare hdvd), fun ⟨_, _, hnone⟩ => ?_⟩
    have hroot : divisor.toNat < 65536 := Nat.mul_self_lt_mul_self_iff.mp (lt_of_le_of_lt hsquare n.toNat_lt)
    exact hnone divisor.toNat h.three_le (by omega) h.divisor_odd hdvd
  | next hnext hsquare hdvd => exact h.next hnext hsquare hdvd

theorem holds_step {trial : Trial} (h : Holds n trial) : Holds n (step n trial) := by
  cases trial with
  | trying divisor => exact holds_attempt h
  | decided prime => exact h
  | overflowed => exact h

/-! ## Many rounds -/

/-- Where the trial of `n` stands after a number of rounds. -/
def after (n : UInt32) (rounds : ℕ) : Trial :=
  (step n)^[rounds] (start n)

theorem after_succ (n : UInt32) (rounds : ℕ) : after n (rounds + 1) = step n (after n rounds) :=
  Function.iterate_succ_apply' (step n) rounds (start n)

theorem holds_after (n : UInt32) (rounds : ℕ) : Holds n (after n rounds) := by
  induction rounds with
  | zero => exact holds_start n
  | succ rounds ih =>
    rw [after_succ]
    exact holds_step ih

theorem reaches_of_after_eq_trying {rounds : ℕ} (h : after n rounds = .trying divisor) : Reaches n divisor := by
  have hholds := holds_after n rounds
  rwa [h] at hholds

theorem exceeds_of_after_eq_overflowed {rounds : ℕ} (h : after n rounds = .overflowed) : Exceeds n := by
  have hholds := holds_after n rounds
  rwa [h] at hholds

/-- Every round adds two to the divisor. -/
theorem toNat_of_after_eq_trying {rounds : ℕ} (h : after n rounds = .trying divisor) :
    divisor.toNat = 3 + 2 * rounds := by
  induction rounds generalizing divisor with
  | zero =>
    unfold after start at h
    simp only [Function.iterate_zero, id_eq] at h
    split at h
    · cases h
    split at h
    · cases h
    · cases h
      rfl
  | succ rounds ih =>
    rw [after_succ] at h
    cases hbefore : after n rounds with
    | trying before =>
      rw [hbefore, step] at h
      have hround := round_attempt n before
      rw [h] at hround
      cases hround with
      | next hnext _ _ =>
        have := ih hbefore
        omega
    | decided prime => simp [hbefore, step] at h
    | overflowed => simp [hbefore, step] at h

/-- A step of a trial does not change what comes out of it. -/
theorem outcome_step (n : UInt32) (trial : Trial) : (step n trial).outcome n = trial.outcome n := by
  cases trial with
  | trying divisor => rw [outcome, step]
  | decided prime => rfl
  | overflowed => rfl

theorem outcome_after (n : UInt32) (rounds : ℕ) : (after n rounds).outcome n = isPrimeWord? n := by
  induction rounds with
  | zero => rfl
  | succ rounds ih => rw [after_succ, outcome_step, ih]

/-- A trial that tries no divisor any more is over: either it is decided, or words are too small. -/
theorem over_of_forall_ne {rounds : ℕ} (h : ∀ divisor, after n rounds ≠ .trying divisor) :
    (∃ prime, after n rounds = .decided prime ∧ isPrimeWord? n = some prime ∧ (prime = true ↔ n.toNat.Prime)
        ∧ ¬Exceeds n)
      ∨ isPrimeWord? n = none ∧ Exceeds n := by
  have houtcome := outcome_after n rounds
  cases hafter : after n rounds with
  | trying divisor => exact absurd hafter (h divisor)
  | decided prime =>
    have hholds := holds_after n rounds
    rw [hafter] at hholds houtcome
    rw [outcome] at houtcome
    exact .inl ⟨prime, rfl, houtcome.symm, hholds.1, hholds.2⟩
  | overflowed =>
    rw [hafter, outcome] at houtcome
    exact .inr ⟨houtcome.symm, exceeds_of_after_eq_overflowed hafter⟩

/-! ## When words are large enough -/

section Fits

variable (h : n % 2 = 0 ∨ n ≤ 4294836224)

include h

theorem even_or_lt : n.toNat % 2 = 0 ∨ n.toNat < 65535 * 65535 := by
  rcases h with heven | hle
  · exact .inl (mod_two_eq_zero_iff.mp heven)
  · exact .inr (Nat.lt_succ_of_le (UInt32.le_iff_toNat_le.mp hle))

theorem not_exceeds : ¬Exceeds n := by
  rintro ⟨hodd, hlarge, -⟩
  rcases even_or_lt h with heven | hlt <;> omega

/-- No divisor is greater than 65535. -/
theorem le_65535_of_after_eq_trying {rounds : ℕ} (htrying : after n rounds = .trying divisor) :
    divisor.toNat ≤ 65535 := by
  have hreaches := reaches_of_after_eq_trying htrying
  have hodd := hreaches.odd
  have hdivisor := hreaches.divisor_odd
  rcases even_or_lt h with heven | hlt
  · omega
  · have := hreaches.lt_of_lt_mul_self hlt
    omega

/-- The trial is decided after 32767 rounds, and rightly so. -/
theorem exists_decided :
    ∃ prime, after n 32767 = .decided prime ∧ isPrimeWord? n = some prime ∧ (prime = true ↔ n.toNat.Prime) := by
  -- The divisor would be 65537 then.
  have hover : ∀ divisor, after n 32767 ≠ .trying divisor := by
    intro divisor htrying
    have := le_65535_of_after_eq_trying h htrying
    have := toNat_of_after_eq_trying htrying
    omega
  rcases over_of_forall_ne hover with ⟨prime, hafter, hprime, hiff, -⟩ | ⟨-, hexceeds⟩
  · exact ⟨prime, hafter, hprime, hiff⟩
  · exact absurd hexceeds (not_exceeds h)

end Fits

end Trial

open Trial

/-- Words are too small exactly for odd numbers from the square of 65535 on that no odd number from 3 to 65535
divides. -/
theorem isPrimeWord?_eq_none_iff {n : UInt32} : isPrimeWord? n = none ↔ Exceeds n := by
  -- After 32768 rounds the divisor would be 65539.
  have hover : ∀ divisor, after n 32768 ≠ .trying divisor := by
    intro divisor htrying
    have := (reaches_of_after_eq_trying htrying).le_65537
    have := toNat_of_after_eq_trying htrying
    omega
  rcases over_of_forall_ne hover with ⟨prime, -, hprime, -, hexceeds⟩ | ⟨hnone, hexceeds⟩
  · rw [hprime]
    exact iff_of_false (by simp) hexceeds
  · exact iff_of_true hnone hexceeds

/-- Where words are large enough, they give what numbers give. -/
theorem isPrimeWord?_eq_some {n : UInt32} (h : n % 2 = 0 ∨ n ≤ 4294836224) :
    isPrimeWord? n = some (isPrime n.toNat) := by
  obtain ⟨prime, -, hprime, hiff⟩ := exists_decided h
  have heq : prime = isPrime n.toNat := by rw [Bool.eq_iff_iff, hiff, isPrime_iff]
  rw [hprime, heq]

/-- **Trial division stays in words.** The trial of a word that is even or less than the square of 65535 is over after
32767 rounds at most. Whatever divisor a round tries is at most 65535, and its square and the divisor after it are
words, so nothing overflows; and what is decided is whether the word is prime. -/
theorem trial_division_stays_in_words {n : UInt32} (h : n % 2 = 0 ∨ n ≤ 4294836224) :
    (∀ rounds divisor, after n rounds = .trying divisor →
        divisor ≤ 65535 ∧ divisor.toNat * divisor.toNat < UInt32.size ∧ divisor.toNat + 2 < UInt32.size)
      ∧ (∀ rounds, after n rounds ≠ .overflowed)
      ∧ ∃ prime, after n 32767 = .decided prime ∧ isPrimeWord? n = some prime ∧ isPrime n.toNat = prime
        ∧ (prime = true ↔ n.toNat.Prime) := by
  obtain ⟨prime, hafter, hprime, hiff⟩ := exists_decided h
  have hnumbers : isPrime n.toNat = prime := by
    have hsome := isPrimeWord?_eq_some h
    rw [hprime] at hsome
    exact (Option.some.inj hsome).symm
  refine ⟨fun rounds divisor htrying => ?_, fun rounds hoverflowed => ?_, prime, hafter, hprime, hnumbers, hiff⟩
  · have hle := le_65535_of_after_eq_trying h htrying
    have hsquare : divisor.toNat * divisor.toNat ≤ 65535 * 65535 := Nat.mul_le_mul hle hle
    exact ⟨UInt32.le_iff_toNat_le.mpr hle, lt_of_le_of_lt hsquare (by decide),
      lt_of_le_of_lt (Nat.add_le_add_right hle 2) (by decide)⟩
  · exact not_exceeds h (exceeds_of_after_eq_overflowed hoverflowed)

/-- The trial of 65519 · 65521 takes 32759 rounds and finds out that the number is composite. -/
theorem trial_division_stays_in_words_of_largeProduct :
    (4292870399 : UInt32) ≤ 4294836224 ∧ (∀ rounds, after 4292870399 rounds ≠ .overflowed)
      ∧ after 4292870399 32767 = .decided false ∧ isPrimeWord? 4292870399 = some false := by
  have hle : (4292870399 : UInt32) ≤ 4294836224 := by decide
  obtain ⟨-, hstays, prime, hafter, hprime, -, hiff⟩ := trial_division_stays_in_words (.inr hle)
  have hcomposite : ¬Nat.Prime (4292870399 : UInt32).toNat :=
    Nat.not_prime_of_mul_eq (a := 65519) (b := 65521) rfl (by decide) (by decide)
  rw [← hiff, Bool.not_eq_true] at hcomposite
  rw [hcomposite] at hafter hprime
  exact ⟨hle, hstays, hafter, hprime⟩

end EntityForge
