import EntityForge.Proofs.TrialDivision
import Mathlib.Tactic.NormNum.Prime

/-!
# The nearest prime of a range

A search in `[low, high)` first moves its start into the range. It finds the least prime from there on, or else the
greatest prime before it, and comes to nothing only in a range without primes (`FindsNearest`). In words it finds the
same primes as long as trial division stays in words.

Main statement: `search_finds_nearest_prime`.
-/

namespace EntityForge

/-! ## Numbers -/

/-- The primes of `[low, high)`. -/
def primesIn (low high : ℕ) : Set ℕ :=
  {q | low ≤ q ∧ q < high ∧ q.Prime}

theorem primesIn_eq_empty_iff {low high : ℕ} : primesIn low high = ∅ ↔ ∀ q, low ≤ q → q < high → ¬q.Prime := by
  rw [Set.eq_empty_iff_forall_notMem]
  exact ⟨fun h q hle hlt hprime => h q ⟨hle, hlt, hprime⟩, fun h q ⟨hle, hlt, hprime⟩ => h q hle hlt hprime⟩

/-- What a search from `start` finds in `[low, high)`. -/
structure FindsNearest (low start high : ℕ) (found : Option ℕ) : Prop where
  /-- The least prime from the start on, if there is one. -/
  above : (primesIn start high).Nonempty → ∃ p, found = some p ∧ IsLeast (primesIn start high) p
  /-- The greatest prime before the start, if there is none from it on. -/
  below : primesIn start high = ∅ → (primesIn low start).Nonempty →
    ∃ p, found = some p ∧ IsGreatest (primesIn low start) p
  /-- Nothing, if there is none on either side. -/
  nothing : primesIn start high = ∅ → primesIn low start = ∅ → found = none
  eq_none_iff : found = none ↔ primesIn low high = ∅
  mem : ∀ p, found = some p → p ∈ primesIn low high

/-- The search upward finds the least prime from the start on, if there is one. -/
theorem primeFrom_cases {start high : ℕ} (h : start ≤ high) :
    (∃ p, primeFrom start (high - start) = some p ∧ IsLeast (primesIn start high) p)
      ∨ primeFrom start (high - start) = none ∧ primesIn start high = ∅ := by
  have hend : start + (high - start) = high := Nat.add_sub_cancel' h
  cases hfound : primeFrom start (high - start) with
  | some p =>
    have hleast := primeFrom_eq_some_iff.mp hfound
    rw [hend] at hleast
    exact .inl ⟨p, rfl, hleast⟩
  | none =>
    have hnone := primeFrom_eq_none_iff.mp hfound
    rw [hend] at hnone
    exact .inr ⟨rfl, primesIn_eq_empty_iff.mpr hnone⟩

/-- The search downward finds the greatest prime before the start, if there is one. -/
theorem primeBelow_cases (low start : ℕ) :
    (∃ p, primeBelow low start = some p ∧ IsGreatest (primesIn low start) p)
      ∨ primeBelow low start = none ∧ primesIn low start = ∅ := by
  cases hfound : primeBelow low start with
  | some p => exact .inl ⟨p, rfl, primeBelow_eq_some_iff.mp hfound⟩
  | none => exact .inr ⟨rfl, primesIn_eq_empty_iff.mpr (primeBelow_eq_none_iff.mp hfound)⟩

/-- A search goes upward from its moved start, and then downward from it. -/
theorem primeInRange_eq_or {start low high moved : ℕ} (h : max low (min start (high - 1)) = moved) :
    primeInRange start low high = (primeFrom moved (high - moved)).or (primeBelow low moved) := by
  simp only [primeInRange, h]
  cases primeFrom moved (high - moved) with
  | some p => rfl
  | none => rfl

/-- A search whose start can be moved into the range finds the prime that is nearest to it. -/
theorem findsNearest_primeInRange {start low high : ℕ} (h : low ≤ high - 1) :
    FindsNearest low (max low (min start (high - 1))) high (primeInRange start low high) := by
  have hnone : primeInRange start low high = none ↔ primesIn low high = ∅ := by
    rw [primeInRange_eq_none_iff, primesIn_eq_empty_iff]
  have hmem : ∀ p, primeInRange start low high = some p → p ∈ primesIn low high := by
    intro p hp
    obtain ⟨hprime, hle, hlt⟩ := prime_of_primeInRange_eq_some hp
    exact ⟨hle, hlt, hprime⟩
  generalize hmoved : max low (min start (high - 1)) = moved
  have hsearch := primeInRange_eq_or hmoved
  have hmovedLe : moved ≤ high := by omega
  rcases primeFrom_cases hmovedLe with ⟨p, hfound, hleast⟩ | ⟨hnothing, habove⟩
  · rw [hfound, Option.some_or] at hsearch
    have hne : primesIn moved high ≠ ∅ := Set.nonempty_iff_ne_empty.mp ⟨p, hleast.1⟩
    exact
      { above := fun _ => ⟨p, hsearch, hleast⟩
        below := fun hempty => absurd hempty hne
        nothing := fun hempty => absurd hempty hne
        eq_none_iff := hnone
        mem := hmem }
  rw [hnothing, Option.none_or] at hsearch
  have hnotAbove : ¬(primesIn moved high).Nonempty := Set.not_nonempty_iff_eq_empty.mpr habove
  rcases primeBelow_cases low moved with ⟨p, hfound, hgreatest⟩ | ⟨hfound, hbelow⟩
  · rw [hfound] at hsearch
    have hne : primesIn low moved ≠ ∅ := Set.nonempty_iff_ne_empty.mp ⟨p, hgreatest.1⟩
    exact
      { above := fun hsome => absurd hsome hnotAbove
        below := fun _ _ => ⟨p, hsearch, hgreatest⟩
        nothing := fun _ hempty => absurd hempty hne
        eq_none_iff := hnone
        mem := hmem }
  · rw [hfound] at hsearch
    exact
      { above := fun hsome => absurd hsome hnotAbove
        below := fun _ hsome => absurd hsome (Set.not_nonempty_iff_eq_empty.mpr hbelow)
        nothing := fun _ _ => hsearch
        eq_none_iff := hnone
        mem := hmem }

/-! ## Words -/

/-- Numbers less than the square of 65535 are tried in words. -/
theorem isPrimeWord?_of_lt {n : UInt32} (h : n.toNat < 4294836225) : isPrimeWord? n = some (isPrime n.toNat) :=
  isPrimeWord?_eq_some (.inr (UInt32.le_iff_toNat_le.mpr (Nat.le_of_lt_succ h)))

/-- The search upward finds in words what it finds in numbers. -/
theorem exists_primeWordFrom_eq {n high : UInt32} (h : high.toNat ≤ 4294836225) :
    ∃ found, primeWordFrom n high = .ok found
      ∧ found.map UInt32.toNat = primeFrom n.toNat (high.toNat - n.toNat) := by
  fun_induction primeWordFrom n high with
  | case1 n hlt hnone =>
    have hlt : n.toNat < high.toNat := UInt32.lt_iff_toNat_lt.mp hlt
    rw [isPrimeWord?_of_lt (by omega)] at hnone
    cases hnone
  | case2 n hlt hsome =>
    have hlt : n.toNat < high.toNat := UInt32.lt_iff_toNat_lt.mp hlt
    rw [isPrimeWord?_of_lt (by omega), Option.some.injEq] at hsome
    obtain ⟨count, hcount⟩ := Nat.exists_eq_succ_of_ne_zero (Nat.sub_ne_zero_of_lt hlt)
    refine ⟨some n, rfl, ?_⟩
    rw [hcount, primeFrom, if_pos hsome]
    rfl
  | case3 n hlt hsome ih =>
    obtain ⟨found, hfound, hmap⟩ := ih
    have hnext : (n + 1).toNat = n.toNat + 1 := toNat_add_one_of_lt hlt
    have hlt : n.toNat < high.toNat := UInt32.lt_iff_toNat_lt.mp hlt
    rw [isPrimeWord?_of_lt (by omega), Option.some.injEq] at hsome
    have hcount : high.toNat - n.toNat = high.toNat - (n.toNat + 1) + 1 := by omega
    refine ⟨found, hfound, ?_⟩
    rw [hcount, primeFrom, if_neg (by simp [hsome]), hmap, hnext]
  | case4 n hnot =>
    have hcount : high.toNat - n.toNat = 0 :=
      Nat.sub_eq_zero_of_le (Nat.not_lt.mp fun hlt => hnot (UInt32.lt_iff_toNat_lt.mpr hlt))
    refine ⟨none, rfl, ?_⟩
    rw [hcount]
    rfl

/-- The search downward finds in words what it finds in numbers. -/
theorem exists_primeWordBelow_eq {low n : UInt32} (h : n.toNat ≤ 4294836225) :
    ∃ found, primeWordBelow low n = .ok found ∧ found.map UInt32.toNat = primeBelow low.toNat n.toNat := by
  fun_induction primeWordBelow low n with
  | case1 n hlt hnone =>
    have hprevious : (n - 1).toNat = n.toNat - 1 := toNat_sub_one_of_lt hlt
    have hlt : low.toNat < n.toNat := UInt32.lt_iff_toNat_lt.mp hlt
    rw [isPrimeWord?_of_lt (by omega)] at hnone
    cases hnone
  | case2 n hlt hsome =>
    have hprevious : (n - 1).toNat = n.toNat - 1 := toNat_sub_one_of_lt hlt
    have hlt : low.toNat < n.toNat := UInt32.lt_iff_toNat_lt.mp hlt
    rw [isPrimeWord?_of_lt (by omega), Option.some.injEq] at hsome
    have hn : n.toNat = (n - 1).toNat + 1 := by omega
    refine ⟨some (n - 1), rfl, ?_⟩
    rw [hn, primeBelow, if_neg (by omega), if_pos hsome]
    rfl
  | case3 n hlt hsome ih =>
    have hprevious : (n - 1).toNat = n.toNat - 1 := toNat_sub_one_of_lt hlt
    have hlt : low.toNat < n.toNat := UInt32.lt_iff_toNat_lt.mp hlt
    rw [isPrimeWord?_of_lt (by omega), Option.some.injEq] at hsome
    obtain ⟨found, hfound, hmap⟩ := ih (by omega)
    have hn : n.toNat = (n - 1).toNat + 1 := by omega
    refine ⟨found, hfound, ?_⟩
    rw [hn, primeBelow, if_neg (by omega), if_neg (by simp [hsome]), hmap]
  | case4 n hnot =>
    have hle : n.toNat ≤ low.toNat := Nat.not_lt.mp fun hlt => hnot (UInt32.lt_iff_toNat_lt.mpr hlt)
    refine ⟨none, rfl, ?_⟩
    cases hn : n.toNat with
    | zero => rfl
    | succ m =>
      rw [primeBelow, if_pos (by omega)]
      rfl

/-- The search finds in words what it finds in numbers, when all numbers of its range can be tried. -/
theorem exists_searchPrimeWord_eq (start : UInt32) {low high : UInt32} (hlow : low.toNat ≤ high.toNat - 1)
    (hhigh : high.toNat ≤ 4294836225) :
    ∃ found, searchPrimeWord start low high = .ok found
      ∧ found.map UInt32.toNat = primeInRange start.toNat low.toNat high.toNat := by
  obtain ⟨last, hlast, hlastNat⟩ : ∃ last, (if high = 0 then 0 else high - 1) = last ∧ last.toNat = high.toNat - 1 := by
    by_cases hzero : high = 0
    · exact ⟨0, if_pos hzero, by rw [hzero]; rfl⟩
    · exact ⟨high - 1, if_neg hzero, toNat_sub_one_of_lt (UInt32.pos_iff_ne_zero.mpr hzero)⟩
  have hmoved : (max low (min start last)).toNat = max low.toNat (min start.toNat (high.toNat - 1)) := by
    rw [UInt32.toNat_max, UInt32.toNat_min, hlastNat]
  obtain ⟨found, hfound, hup⟩ := exists_primeWordFrom_eq (n := max low (min start last)) hhigh
  rw [hmoved] at hup
  simp only [searchPrimeWord, hlast, UInt32.le_iff_toNat_le, hlastNat, if_pos hlow, hfound, primeInRange_eq_or rfl,
    ← hup]
  cases found with
  | some p => exact ⟨some p, rfl, rfl⟩
  | none =>
    have hle : (max low (min start last)).toNat ≤ 4294836225 := by omega
    rw [← hmoved]
    exact exists_primeWordBelow_eq hle

/-- **The nearest prime is found.** Whenever the start can be moved into `[low, high)` and the range ends at the square
of 65535 or before it, the search in words gives the least prime from the moved start on, or else the greatest prime
before it, or else nothing. So it gives nothing exactly when the range has no prime, it gives primes of the range only,
and the search in numbers gives the same. -/
theorem search_finds_nearest_prime (start : UInt32) {low high : UInt32} (hlow : low.toNat ≤ high.toNat - 1)
    (hhigh : high ≤ 4294836225) :
    ∃ found, searchPrimeWord start low high = .ok found
      ∧ searchPrime start.toNat low.toNat high.toNat = .ok (found.map UInt32.toNat)
      ∧ FindsNearest low.toNat (max low.toNat (min start.toNat (high.toNat - 1))) high.toNat
          (found.map UInt32.toNat) := by
  obtain ⟨found, hfound, hmap⟩ := exists_searchPrimeWord_eq start hlow (UInt32.le_iff_toNat_le.mp hhigh)
  refine ⟨found, hfound, ?_, ?_⟩
  · rw [searchPrime, if_pos hlow, hmap]
  · rw [hmap]
    exact findsNearest_primeInRange hlow

/-- From 98 on the range up to 100 has no prime, and the greatest one before 98 is 97. -/
theorem search_finds_nearest_prime_before98 :
    (10 : UInt32).toNat ≤ (100 : UInt32).toNat - 1 ∧ (100 : UInt32) ≤ 4294836225
      ∧ searchPrimeWord 98 10 100 = .ok (some 97) := by
  have hlow : (10 : UInt32).toNat ≤ (100 : UInt32).toNat - 1 := by decide
  have hhigh : (100 : UInt32) ≤ 4294836225 := by decide
  have habove : primesIn 98 100 = ∅ := by
    rw [primesIn_eq_empty_iff]
    intro q hle hlt
    obtain rfl | rfl : q = 98 ∨ q = 99 := by omega
    · norm_num
    · norm_num
  have hmem : 97 ∈ primesIn 10 98 := ⟨by decide, by decide, by norm_num⟩
  obtain ⟨found, hfound, -, hnearest⟩ := search_finds_nearest_prime 98 hlow hhigh
  obtain ⟨p, hp, ⟨-, hlt, -⟩, hgreatest⟩ := hnearest.below habove ⟨97, hmem⟩
  obtain ⟨word, rfl, rfl⟩ := Option.map_eq_some_iff.mp hp
  have hword : word = 97 := UInt32.toNat_inj.mp (le_antisymm (Nat.le_of_lt_succ hlt) (hgreatest hmem))
  subst hword
  exact ⟨hlow, hhigh, hfound⟩

end EntityForge
