import EntityForge.Proofs.PrimeDraws
import EntityForge.Proofs.PrimeSearch
import Mathlib.Order.Interval.Set.Defs

/-!
# Pairs drawn from a seed

The numbers of a pair are searched for in two ranges that have primes, from numbers of these ranges which are drawn from
the words of a seed. So no search comes to nothing, no number is ever replaced by one of the standard pair, and all pairs
are made of primes of the two ranges. The hash codes of a run are written with pairs of its supply, which their texts
show; when the first pair is shared, they are all written with that one.

Main statement: `hash_codes_carry_drawn_primes`.
-/

namespace EntityForge

open Java

/-! ## Numbers drawn from words -/

namespace WordStream

/-- The word of an index may be taken for a number below `range`. -/
def Accepts (key : UInt64) (range index : ℕ) : Prop :=
  (word key index).toNat * range % UInt32.size ≤ acceptance range

instance (key : UInt64) (range index : ℕ) : Decidable (Accepts key range index) :=
  inferInstanceAs (Decidable (_ ≤ _))

/-- From a position on, `refused` words are refused and the one after them is taken. -/
structure AcceptsAfter (key : UInt64) (range position refused : ℕ) : Prop where
  refuses : ∀ i < refused, ¬Accepts key range (position + i)
  accepts : Accepts key range (position + refused)

/-- The number drawn is that of the first word that is taken. -/
theorem drawBelow_of_acceptsAfter {key : UInt64} {range position refused tries : ℕ}
    (h : AcceptsAfter key range position refused) (htries : refused ≤ tries) :
    (drawBelow key range tries position).1 = (word key (position + refused)).toNat * range / UInt32.size := by
  induction tries generalizing position refused with
  | zero =>
    obtain rfl : refused = 0 := by omega
    rfl
  | succ tries ih =>
    have hstep : drawBelow key range (tries + 1) position
        = if Accepts key range position then ((word key position).toNat * range / UInt32.size, position + 1)
          else drawBelow key range tries (position + 1) :=
      rfl
    cases refused with
    | zero =>
      have htaken : Accepts key range position := h.accepts
      rw [hstep, if_pos htaken]
      rfl
    | succ refused =>
      have hrefused : ¬Accepts key range position := h.refuses 0 (by omega)
      rw [hstep, if_neg hrefused]
      have hnext : position + 1 + refused = position + (refused + 1) := by omega
      have hrest : AcceptsAfter key range (position + 1) refused := by
        refine ⟨fun i hi => ?_, hnext ▸ h.accepts⟩
        have hshift : position + 1 + i = position + (i + 1) := by omega
        rw [hshift]
        exact h.refuses (i + 1) (by omega)
      rw [ih hrest (by omega), hnext]

/-- A number of a range is drawn from it. -/
theorem draw_mem {key : UInt64} {low high position : ℕ} (h : low < high) :
    (draw key low high position).1 ∈ Set.Ico low high := by
  have hrange : 0 < high - low := by omega
  have hlt : (drawBelow key (high - low) maxTries position).1 < high - low := drawBelow_lt hrange maxTries position
  constructor
  · exact Nat.le_add_right low _
  · show low + (drawBelow key (high - low) maxTries position).1 < high
    omega

end WordStream

/-! ## Primes found from them -/

/-- A number that is drawn from the words at a position leads to a prime of its range. -/
structure DrawnPrime (key : UInt64) (low high position p : ℕ) : Prop where
  /-- The number is that of the first word that is taken. -/
  sampled : ∀ refused ≤ WordStream.maxTries, WordStream.AcceptsAfter key (high - low) position refused →
    (WordStream.draw key low high position).1
      = low + (WordStream.word key (position + refused)).toNat * (high - low) / UInt32.size
  start_mem : (WordStream.draw key low high position).1 ∈ Set.Ico low high
  /-- The prime is the one that the search finds. -/
  found : primeInRange (WordStream.draw key low high position).1 low high = some p
  prime : p.Prime
  mem : p ∈ Set.Ico low high

/-- In a range that has a prime, one is found, and what would stand in for it is not used. -/
theorem drawnPrime {low high q : ℕ} (hq : q.Prime) (hmem : q ∈ Set.Ico low high) (key : UInt64)
    (position substitute : ℕ) :
    DrawnPrime key low high position
      ((primeInRange (WordStream.draw key low high position).1 low high).getD substitute) := by
  obtain ⟨hlow, hhigh⟩ := hmem
  cases hfound : primeInRange (WordStream.draw key low high position).1 low high with
  | none => exact absurd hq (primeInRange_eq_none_iff.mp hfound q hlow hhigh)
  | some p =>
    obtain ⟨hprime, hle, hlt⟩ := prime_of_primeInRange_eq_some hfound
    refine ⟨fun refused hrefused haccepts => ?_, WordStream.draw_mem (by omega), hfound, hprime, hle, hlt⟩
    exact congrArg (low + ·) (WordStream.drawBelow_of_acceptsAfter haccepts hrefused)

/-- The pair is drawn from the words at a position: its seed first, and then its multiplier. -/
structure PrimePair.IsDrawn (key : UInt64) (position : ℕ) (pair : PrimePair) : Prop where
  seed : DrawnPrime key 2 10 position pair.seed
  multiplier : DrawnPrime key 10 100 (WordStream.draw key 2 10 position).2 pair.multiplier

theorem PrimePair.isDrawn_drawn (key : UInt64) (position : ℕ) : (drawn key position).1.IsDrawn key position := by
  have hseed := drawnPrime Nat.prime_two (by simp : 2 ∈ Set.Ico 2 10) key position standard.seed
  have hmultiplier := drawnPrime Nat.prime_eleven (by simp : 11 ∈ Set.Ico 10 100) key
    (WordStream.draw key 2 10 position).2 standard.multiplier
  constructor
  · simpa only [drawn] using hseed
  · simpa only [drawn] using hmultiplier

/-! ## Pairs of a supply -/

section Yields

variable {σ : Type} [PrimeSource σ]

/-- The pair is one of those that are drawn one after the other. -/
def Yields (primes : σ) (pair : PrimePair) : Prop :=
  ∃ count, pair ∈ (takePairs count primes).1

theorem yields_next (primes : σ) : Yields primes (PrimeSource.next primes).1 :=
  ⟨1, List.mem_cons_self⟩

/-- The body of a draw carries a pair of the supply. -/
theorem Draws.exists_yields {x y : σ} {draws : List (Option (List Statement))} (h : Draws x draws y)
    {body : List Statement} (hbody : some body ∈ draws) : ∃ pair, Yields x pair ∧ Carries pair body := by
  induction h with
  | nil => exact absurd hbody (by simp)
  | @cons primes _ draw _ carries _ ih =>
    rcases List.mem_cons.mp hbody with rfl | hbody
    · exact ⟨(PrimeSource.next primes).1, yields_next primes, carries body rfl⟩
    · obtain ⟨pair, ⟨count, hcount⟩, hcarries⟩ := ih hbody
      exact ⟨pair, ⟨count + 1, List.mem_cons_of_mem _ hcount⟩, hcarries⟩

/-- What holds of the next pair of each supply of a kind, and leaves one of that kind, holds of all its pairs. -/
theorem Yields.holds (IsKind : σ → Prop) (Holds : PrimePair → Prop) {primes : σ} {pair : PrimePair}
    (h : Yields primes pair) (hkind : IsKind primes)
    (hnext : ∀ source, IsKind source → Holds (PrimeSource.next source).1 ∧ IsKind (PrimeSource.next source).2) :
    Holds pair := by
  obtain ⟨count, hcount⟩ := h
  induction count generalizing primes with
  | zero => exact absurd hcount (by simp [takePairs])
  | succ count ih =>
    obtain ⟨hfirst, hrest⟩ := hnext primes hkind
    rcases List.mem_cons.mp hcount with rfl | hcount
    · exact hfirst
    · exact ih hrest hcount

/-- A supply that repeats a pair has no other. -/
theorem Repeats.eq_of_yields {pair other : PrimePair} {primes : σ} (h : Repeats pair primes)
    (hyields : Yields primes other) : other = pair := by
  obtain ⟨count, hcount⟩ := hyields
  rw [h count] at hcount
  exact List.eq_of_mem_replicate hcount

end Yields

/-- A seed gives the pair that is drawn from its words. -/
theorem PrimeSupply.next_seeded (key : UInt64) (position : ℕ) :
    PrimeSource.next (PrimeSupply.seeded key position)
      = ((PrimePair.drawn key position).1, .seeded key (PrimePair.drawn key position).2) := by
  simp only [PrimeSource.next, next]

/-- The pairs of a seed are drawn from its words. -/
theorem PrimeSupply.exists_isDrawn {key : UInt64} {position : ℕ} {pair : PrimePair}
    (h : Yields (PrimeSupply.seeded key position) pair) : ∃ start, pair.IsDrawn key start := by
  refine Yields.holds (fun source => ∃ start, source = .seeded key start) (fun pair => ∃ start, pair.IsDrawn key start)
    h ⟨position, rfl⟩ ?_
  rintro _ ⟨start, rfl⟩
  rw [next_seeded]
  simp only
  exact ⟨⟨start, PrimePair.isDrawn_drawn key start⟩, _, rfl⟩

/-! ## Hash codes of a run -/

/-- Each registered hash code carries a pair of the supply that the run draws from. -/
theorem RunsTo.exists_yields {σ S : Type} [PrimeSource σ] {generator : Generator (StateM S)} {x y : σ × S}
    {report : Report} {outcomes : List StageOutcome} (h : RunsTo generator x y report outcomes)
    {body : List Statement} (hbody : body ∈ report.hashBodies) : ∃ pair, Yields x.1 pair ∧ Carries pair body := by
  refine h.runs.draws.exists_yields ?_
  rw [h.hashBodies_eq] at hbody
  obtain ⟨o, ho, hbody⟩ := List.mem_flatMap.mp hbody
  exact List.mem_flatMap.mpr ⟨o, ho, List.mem_append_left _ (List.mem_map_of_mem hbody)⟩

/-- **Hash codes carry drawn primes.** In a run that draws pairs from a seed, whatever the metamodel, the other options
and the writer: each registered hash code, as its statements and as its text, starts with a prime of [2, 10) and
multiplies by a prime of [10, 100), which make up a pair of the seed and were both found from drawn numbers. When the
first pair is shared, all hash codes carry the first pair of the seed. -/
theorem hash_codes_carry_drawn_primes {S : Type} {generator : Generator (StateM S)} {seed entropy : UInt64}
    {s s' : S} {primes : PrimeSupply} {report : Report} (hseed : generator.options.hashSeed = some seed)
    (hpolicy : generator.options.hashPolicy ≠ .fixed)
    (hrun : (generator.run (generator.options.supply entropy)).run s = (.ok (report, primes), s')) :
    (∀ body ∈ report.hashBodies, ∃ pair, Carries pair body ∧ Yields (PrimeSupply.seeded seed 0) pair
        ∧ ∃ position, pair.IsDrawn seed position)
      ∧ (generator.options.hashPolicy = .sharedPerRun →
        ∀ body ∈ report.hashBodies, Carries (PrimeSupply.seeded seed 0).next.1 body) := by
  obtain ⟨outcomes, hruns⟩ := exists_runsTo hrun
  have hfirst : Yields (PrimeSupply.seeded seed 0) (PrimeSupply.seeded seed 0).next.1 := yields_next _
  -- A shared supply repeats the first pair of the seed.
  have hshared : generator.options.hashPolicy = .sharedPerRun →
      ∀ body ∈ report.hashBodies, Carries (PrimeSupply.seeded seed 0).next.1 body := by
    intro hpolicy body hbody
    have hsupply : generator.options.supply entropy = .shared none (.seeded seed 0) := by
      simp only [GenerationOptions.supply, hpolicy, hseed, Option.getD_some]
    obtain ⟨pair, hyields, hcarries⟩ := hruns.exists_yields hbody
    simp only [hsupply] at hyields
    have hpair := (PrimeSupply.repeats_shared (.seeded seed 0)).eq_of_yields hyields
    rwa [← hpair]
  refine ⟨fun body hbody => ?_, hshared⟩
  cases hkind : generator.options.hashPolicy with
  | fixed => exact absurd hkind hpolicy
  | sharedPerRun => exact ⟨_, hshared hkind body hbody, hfirst, PrimeSupply.exists_isDrawn hfirst⟩
  | perClass =>
    have hsupply : generator.options.supply entropy = .seeded seed 0 := by
      simp only [GenerationOptions.supply, hkind, hseed, Option.getD_some]
    obtain ⟨pair, hyields, hcarries⟩ := hruns.exists_yields hbody
    simp only [hsupply] at hyields
    exact ⟨pair, hcarries, hyields, PrimeSupply.exists_isDrawn hyields⟩

/-- The options under which all classes share the first pair of a seed. -/
def sharedOptions : GenerationOptions :=
  { GenerationOptions.standard with hashPolicy := .sharedPerRun, hashSeed := some 1 }

/-- The hash codes of a person and of a note both start with the first prime drawn and multiply by the second one. -/
theorem hash_codes_carry_drawn_primes_of_people :
    ∃ report primes sources,
      runInMemory (peopleAndNotes "id") sharedOptions (sharedOptions.supply 0) = (.ok (report, primes), sources)
        ∧ report.hashBodies.map bodyText
          = ["int hash = 7;\nhash = 73 * hash + (int) (this.id ^ (this.id >>> 32));\nreturn hash;",
            "int hash = 7;\nhash = 73 * hash + this.id;\nreturn hash;"]
        ∧ ∀ body ∈ report.hashBodies, Carries (PrimeSupply.seeded 1 0).next.1 body
          ∧ ∃ pair, Carries pair body ∧ Yields (PrimeSupply.seeded 1 0) pair ∧ ∃ position, pair.IsDrawn 1 position := by
  obtain ⟨report, primes, sources, hrun, htexts⟩ :=
    exists_report (runInMemory (peopleAndNotes "id") sharedOptions (sharedOptions.supply 0))
      (fun report => report.hashBodies.map bodyText)
      (a := ["int hash = 7;\nhash = 73 * hash + (int) (this.id ^ (this.id >>> 32));\nreturn hash;",
        "int hash = 7;\nhash = 73 * hash + this.id;\nreturn hash;"]) (by decide +kernel)
  let generator : Generator (StateM Sources) :=
    { model := peopleAndNotes "id", options := sharedOptions, write := Sources.writer }
  obtain ⟨hdrawn, hshared⟩ := @hash_codes_carry_drawn_primes _ generator 1 0 _ _ _ _ rfl (by decide) hrun
  exact ⟨report, primes, sources, hrun, htexts, fun body hbody => ⟨hshared rfl body hbody, hdrawn body hbody⟩⟩

end EntityForge
