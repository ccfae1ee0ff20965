import EntityForge.Proofs.FieldMemo
import EntityForge.Proofs.MethodReading
import EntityForge.Proofs.Steadiness

/-!
# Primes drawn in a run

A hash code is written with a pair of primes, which is drawn when the body is written. The text is written after the
hash code, and its member names are checked only then: a class whose text has a member that is no identifier fails with
its pair drawn. Such a pair is lost, and every later hash code has the pair after the one that it would have had. All
other pairs are those of the registered classes with a hash code, in their order.

Main statement: `primes_match_hash_codes_iff`.
-/

namespace EntityForge

open Java

/-! ## Pairs in bodies -/

/-- The body of a hash code starts with the seed of a pair and uses its multiplier throughout, and so does its text. -/
structure Carries (pair : PrimePair) (body : List Statement) : Prop where
  starts : body.head? = some (.startHash pair.seed)
  seeds : ∀ seed, .startHash seed ∈ body → seed = pair.seed
  multipliers : ∀ multiplier term, .mixHash multiplier term ∈ body → multiplier = pair.multiplier
  /-- The first line of the text declares the hash code with the seed. -/
  seedLine : (Text.cutLines (bodyText body)).head? = some ("int hash = " ++ toString pair.seed ++ ";")
  /-- The lines that mix a term in multiply by the multiplier. -/
  mixLines : ∀ multiplier term, .mixHash multiplier term ∈ body →
    "hash = " ++ toString pair.multiplier ++ " * hash + " ++ term.text ++ ";" ∈ Text.cutLines (bodyText body)
  /-- Piece by piece, the text is read as the statements. -/
  spelled : Spells (bodyText body) body

/-- Whatever statements stand around it, a statement that is written on one line has this line in the text. -/
theorem cutLines_bodyText (before after : List Statement) {s : Statement} {line : String} (hline : s.lines = [line])
    (hfeed : '\n' ∉ line.toList) : Text.cutLines (bodyText (before ++ s :: after))
      = (before.flatMap Statement.lines).flatMap Text.cutLines
        ++ line :: (after.flatMap Statement.lines).flatMap Text.cutLines := by
  have hne : (before ++ s :: after).flatMap Statement.lines ≠ [] := by simp [hline]
  rw [bodyText, Text.cutLines_intercalate hne, List.flatMap_append, List.flatMap_cons, hline, List.flatMap_append,
    List.flatMap_append, List.flatMap_singleton, Text.cutLines_of_not_mem hfeed]
  rfl

theorem not_mem_hashTerm (shape : Shape) {name : String} (h : isIdentifier name = true) :
    '\n' ∉ (shape.hashTerm name).text.toList := by
  have hname : '\n' ∉ name.toList := fun hmem => absurd (isIdentifierPart_of_mem h hmem) (by decide)
  cases shape with
  | primitive type => cases type <;> simp [Shape.hashTerm, Expression.text, Expression.this, hname]
  | floating type =>
    cases type <;> simp [Shape.hashTerm, Expression.text, Expression.this, Floating.bitsMethod, hname]
  | array nested => cases nested <;> simp [Shape.hashTerm, Shape.hashMethod, Expression.text, Expression.this, hname]
  | object => simp [Shape.hashTerm, Shape.hashMethod, Expression.text, Expression.this, hname]

theorem not_mem_toDigits (n : Nat) : '\n' ∉ Nat.toDigits 10 n :=
  fun hmem => absurd (Nat.isDigit_of_mem_toDigits (by decide) (by decide) hmem) (by decide)

/-- A term is mixed in with the multiplier, for a member. -/
theorem mixHash_mem_hashCodeStatements {pair : PrimePair} {input : MethodInput} {multiplier : Nat} {term : Expression}
    (h : .mixHash multiplier term ∈ input.hashCodeStatements pair) :
    multiplier = pair.multiplier ∧ ∃ m ∈ input.members, term = m.shape.hashTerm m.name := by
  have hmix : ∃ m ∈ input.members, pair.multiplier = multiplier ∧ m.shape.hashTerm m.name = term := by
    simpa [MethodInput.hashCodeStatements, MethodInput.preStatements, MethodInput.postStatements] using h
  obtain ⟨m, hm, hmultiplier, hterm⟩ := hmix
  exact ⟨hmultiplier.symm, m, hm, hterm.symm⟩

/-- The body that is written with a pair carries it. -/
theorem carries_hashCodeStatements (pair : PrimePair) {input : MethodInput} {className : String}
    (hfault : input.fault? className = none) : Carries pair (input.hashCodeStatements pair) where
  starts := rfl
  seeds seed hseed := by
    simpa [MethodInput.hashCodeStatements, MethodInput.preStatements, MethodInput.postStatements] using hseed
  multipliers multiplier term hterm := (mixHash_mem_hashCodeStatements hterm).1
  seedLine := by
    have hfeed : '\n' ∉ ("int hash = " ++ toString pair.seed ++ ";").toList := by
      simp [not_mem_toDigits]
    have hline : (Statement.startHash pair.seed).lines = ["int hash = " ++ toString pair.seed ++ ";"] := rfl
    have hlines := cutLines_bodyText [] (input.hashCodeStatements pair).tail hline hfeed
    rw [MethodInput.hashCodeStatements, List.append_assoc, List.append_assoc, List.append_assoc] at hlines ⊢
    exact congrArg List.head? hlines
  mixLines multiplier term hterm := by
    obtain ⟨rfl, m, hm, rfl⟩ := mixHash_mem_hashCodeStatements hterm
    have hname := (MethodInput.fault?_eq_none_iff.mp hfault).2 m hm
    have hfeed : '\n' ∉ ("hash = " ++ toString pair.multiplier ++ " * hash + " ++ (m.shape.hashTerm m.name).text
        ++ ";").toList := by
      simp [not_mem_hashTerm m.shape hname, not_mem_toDigits]
    obtain ⟨before, after, hbody⟩ := List.append_of_mem hterm
    rw [hbody, cutLines_bodyText before after rfl hfeed]
    simp
  spelled := MethodInput.spells_hashCode hfault pair

/-! ## Draws -/

section Draws

variable {σ : Type} [PrimeSource σ]

/-- Pairs are drawn one after the other, each for the body that carries it or for nothing. -/
inductive Draws : σ → List (Option (List Statement)) → σ → Prop
  | nil {primes : σ} : Draws primes [] primes
  | cons {primes after : σ} {draw : Option (List Statement)} {rest : List (Option (List Statement))}
      (carries : ∀ body ∈ draw, Carries (PrimeSource.next primes).1 body)
      (tail : Draws (PrimeSource.next primes).2 rest after) : Draws primes (draw :: rest) after

/-- Without draws, the primes are as before. -/
theorem Draws.eq_of_nil {x y : σ} (h : Draws x [] y) : y = x := by
  cases h
  rfl

/-- Draws may follow draws. -/
theorem Draws.append {x y z : σ} {draws others : List (Option (List Statement))} (h : Draws x draws y)
    (hothers : Draws y others z) : Draws x (draws ++ others) z := by
  induction h with
  | nil => exact hothers
  | cons carries _ ih => exact .cons carries (ih hothers)

/-- As many pairs are drawn as there are draws, and the draws have these pairs in their order. -/
theorem Draws.counted {x y : Counted σ} {draws : List (Option (List Statement))} (h : Draws x draws y) :
    y.drawn = x.drawn + draws.length
      ∧ List.Forall₂ (fun pair draw => ∀ body ∈ draw, Carries pair body) (takePairs draws.length x.source).1
        draws := by
  induction h with
  | nil => exact ⟨rfl, .nil⟩
  | @cons primes after draw rest carries _ ih =>
    obtain ⟨hdrawn, hpairs⟩ := ih
    have hnext : (PrimeSource.next primes).2.drawn = primes.drawn + 1 := rfl
    refine ⟨?_, .cons carries hpairs⟩
    rw [hdrawn, hnext, List.length_cons]
    omega

end Draws

/-! ## Bodies and their faults -/

namespace MethodInput

variable {className : String} {input : MethodInput}

/-- There is a hash code exactly when primes are used for it. -/
theorem hashCodeBody_eq_ok {pair : PrimePair} {body : Option (List Statement)}
    (h : input.hashCodeBody className pair = .ok body) :
    body = if input.usesPrimes className then some (input.hashCodeStatements pair) else none := by
  unfold hashCodeBody MethodInput.body at h
  unfold usesPrimes
  split at h
  · next hempty =>
    rw [← Except.ok.inj h, hempty]
    rfl
  · next hne =>
    split at h
    · exact absurd h (by simp)
    · next hfault =>
      rw [← Except.ok.inj h, hfault]
      simp [hne]

/-- Where primes are used, nothing is wrong with the hash code. -/
theorem hashCodeBody_of_usesPrimes (pair : PrimePair) (h : input.usesPrimes className = true) :
    input.hashCodeBody className pair = .ok (some (input.hashCodeStatements pair)) := by
  unfold usesPrimes at h
  rw [Bool.and_eq_true, Bool.not_eq_true', Option.isNone_iff_eq_none] at h
  rw [hashCodeBody, MethodInput.body, h.1, h.2]
  rfl

/-- In a class with a name of its own, a body is refused exactly when a member is no identifier. -/
theorem body_eq_error_iff (hname : isIdentifier className = true) (statements : List Statement) :
    (∃ fault, input.body className statements = .error fault)
      ↔ ∃ m ∈ input.members, isIdentifier m.name = false := by
  have hfault : input.fault? className
      = (input.members.find? fun m => !isIdentifier m.name).map fun m => .memberName m.name := by
    rw [fault?, hname]
    rfl
  unfold MethodInput.body
  rw [hfault]
  split
  · next hempty =>
    have hmembers : input.members = [] := by
      simp only [isEmpty, Bool.and_eq_true, List.isEmpty_iff] at hempty
      exact hempty.1.1
    simp [hmembers]
  · cases hfind : input.members.find? fun m => !isIdentifier m.name with
    | none =>
      have hall := List.find?_eq_none.mp hfind
      simpa using hall
    | some m =>
      have hm := List.find?_some hfind
      refine iff_of_true ⟨_, rfl⟩ ⟨m, List.mem_of_find?_eq_some hfind, by simpa using hm⟩

end MethodInput

/-! ## Draws of a class -/

/-- Whether the class fails with a pair drawn: its hash code is written, and then its text has a member that is no
identifier. -/
def wastesPair (model : Metamodel) (options : GenerationOptions) (c : ClassModel) : Bool :=
  match Draft.ofWorkplace { model, options, subject := c } with
  | .error _ => false
  | .ok draft => draft.usesPrimes && draft.printing.members.any fun m => !isIdentifier m.name

/-- The draws of a class, given its result: one for its hash code, or one for nothing. -/
def drawsOf (model : Metamodel) (options : GenerationOptions) (c : ClassModel) :
    Except GenerationError JavaClass → List (Option (List Statement))
  | .ok artifact => artifact.hashCodeMethod.toList.map some
  | .error _ => if wastesPair model options c then [none] else []

section Class

variable {σ : Type} [PrimeSource σ] {model : Metamodel} {options : GenerationOptions} {c : ClassModel}
  {primes primes' : σ} {result : Except GenerationError JavaClass}

/-- A class is either not drafted, and no pair is drawn; or it is drafted and finished, and a pair is drawn if the hash
code of the draft uses primes. -/
theorem assemble_cases (h : assemble model options c primes = (result, primes')) :
    (∃ fault, Draft.ofWorkplace { model, options, subject := c } = .error fault
        ∧ result = .error (.invalidInput c.name fault) ∧ primes' = primes)
      ∨ ∃ (parts : Draft.Parts { model, options, subject := c }) (pair : PrimePair),
        Draft.ofWorkplace { model, options, subject := c } = .ok parts.draft
          ∧ (pair, primes') = (if parts.draft.usesPrimes then PrimeSource.next primes else (.standard, primes))
          ∧ result = (parts.draft.finish pair).mapError (.invalidInput c.name) := by
  unfold assemble at h
  split at h
  · next fault hdraft =>
    rw [Prod.mk.injEq] at h
    exact .inl ⟨fault, hdraft, h.1.symm, h.2.symm⟩
  · next draft hdraft =>
    obtain ⟨parts, rfl⟩ := Draft.exists_parts hdraft
    rw [Prod.mk.injEq] at h
    exact .inr ⟨parts, _, hdraft, Prod.ext rfl h.2.symm, h.1.symm⟩

/-- A drafted class wastes a pair when its hash code uses primes and its text is refused. -/
theorem wastesPair_iff {parts : Draft.Parts { model, options, subject := c }}
    (hdraft : Draft.ofWorkplace { model, options, subject := c } = .ok parts.draft) :
    wastesPair model options c = true ↔ parts.draft.usesPrimes = true
      ∧ ∃ fault, parts.draft.printing.toStringBody parts.draft.base.name = .error fault := by
  have hname : isIdentifier parts.draft.base.name = true := parts.className
  unfold wastesPair MethodInput.toStringBody
  rw [hdraft, MethodInput.body_eq_error_iff hname]
  simp

/-- A class that is assembled wastes no pair. -/
theorem wastesPair_of_ok {artifact : JavaClass} (h : assemble model options c primes = (.ok artifact, primes')) :
    wastesPair model options c = false := by
  obtain ⟨_, -, hresult, -⟩ | ⟨parts, pair, hdraft, -, hresult⟩ := assemble_cases h
  · exact absurd hresult (by simp)
  · obtain ⟨_, _, -, hprint, -⟩ := Draft.exists_methods_of_finish (mapError_eq_ok_iff.mp hresult.symm)
    rw [Bool.eq_false_iff, ne_eq, wastesPair_iff hdraft]
    rintro ⟨-, fault, hfault⟩
    exact absurd (hfault.symm.trans hprint) (by simp)

/-- When the draft uses primes, the hash code is written with the drawn pair; then the text is written or refused. -/
theorem draws_of_usesPrimes {parts : Draft.Parts { model, options, subject := c }}
    (hdraft : Draft.ofWorkplace { model, options, subject := c } = .ok parts.draft)
    (huses : parts.draft.usesPrimes = true) (primes : σ) :
    Draws primes (drawsOf model options c
        ((parts.draft.finish (PrimeSource.next primes).1).mapError (.invalidInput c.name)))
      (PrimeSource.next primes).2 := by
  have hhash := MethodInput.hashCodeBody_of_usesPrimes (PrimeSource.next primes).1 huses
  obtain ⟨-, hfault⟩ := (Bool.and_eq_true _ _).mp huses
  unfold Draft.finish
  rw [hhash]
  cases hprint : parts.draft.printing.toStringBody parts.draft.base.name with
  | ok text =>
    refine .cons ?_ .nil
    rintro _ ⟨⟩
    exact carries_hashCodeStatements _ (Option.isNone_iff_eq_none.mp hfault)
  | error fault =>
    have hwaste : wastesPair model options c = true := (wastesPair_iff hdraft).mpr ⟨huses, fault, hprint⟩
    show Draws primes (if wastesPair model options c = true then [none] else []) _
    rw [if_pos hwaste]
    exact .cons (by simp) .nil

/-- A class whose draft uses no primes has no hash code, and wastes no pair. -/
theorem draws_of_not_usesPrimes {parts : Draft.Parts { model, options, subject := c }}
    (hdraft : Draft.ofWorkplace { model, options, subject := c } = .ok parts.draft)
    (huses : ¬parts.draft.usesPrimes = true) (pair : PrimePair) (primes : σ) :
    Draws primes (drawsOf model options c ((parts.draft.finish pair).mapError (.invalidInput c.name))) primes := by
  cases hfinish : parts.draft.finish pair with
  | ok artifact =>
    obtain ⟨hash, _, hhash, -, rfl⟩ := Draft.exists_methods_of_finish hfinish
    have hnone : hash = none := by
      rw [MethodInput.hashCodeBody_eq_ok hhash]
      exact if_neg huses
    subst hnone
    exact .nil
  | error fault =>
    have hwaste : wastesPair model options c = false := by
      rw [Bool.eq_false_iff, ne_eq, wastesPair_iff hdraft]
      exact fun hboth => huses hboth.1
    show Draws primes (if wastesPair model options c = true then [none] else []) primes
    rw [hwaste]
    exact .nil

/-- Assembling a class draws a pair for its hash code, or for nothing if the class wastes it. -/
theorem draws_of_assemble (h : assemble model options c primes = (result, primes')) :
    Draws primes (drawsOf model options c result) primes' := by
  obtain ⟨_, hdraft, rfl, rfl⟩ | ⟨parts, pair, hdraft, hpair, rfl⟩ := assemble_cases h
  · simp only [drawsOf, wastesPair, hdraft]
    exact .nil
  by_cases huses : parts.draft.usesPrimes = true
  · rw [if_pos huses] at hpair
    obtain ⟨rfl, rfl⟩ : pair = (PrimeSource.next primes).1 ∧ primes' = (PrimeSource.next primes).2 :=
      ⟨congrArg Prod.fst hpair, congrArg Prod.snd hpair⟩
    exact draws_of_usesPrimes hdraft huses primes
  · rw [if_neg huses, Prod.mk.injEq] at hpair
    obtain ⟨rfl, rfl⟩ := hpair
    exact draws_of_not_usesPrimes hdraft huses .standard primes'

/-- A class that wastes a pair lists a name for its text that is no identifier. -/
theorem exists_name_of_wastesPair (h : wastesPair model options c = true) :
    ∃ name ∈ c.toStringMethod.attributes, isIdentifier name = false := by
  unfold wastesPair at h
  split at h
  · exact absurd h (by simp)
  · next draft hdraft =>
    obtain ⟨parts, rfl⟩ := Draft.exists_parts hdraft
    rw [Bool.and_eq_true, List.any_eq_true] at h
    obtain ⟨-, m, hm, hbad⟩ := h
    have hmembers := (parts.remembers_hashingMemo.methodInput parts.printing_eq).1
    obtain ⟨name, hname, rfl, -⟩ := exists_mem_right_of_forall₂ hmembers.flip hm
    refine ⟨m.name, ?_, by simpa using hbad⟩
    unfold Workplace.methodNames at hname
    split at hname
    -- The text of a composite key is over its own attributes, and their names were checked before.
    · obtain ⟨a, ha, haname⟩ := List.mem_map.mp hname
      have hgood := isIdentifier_of_attributeFault?_eq_none parts.attributes_eq a ha
      simp [← haname, hgood] at hbad
    · exact hname

end Class

/-! ## Draws of a run -/

/-- The classes of a stage that failed with a pair drawn: none, or the one that ended the stage. -/
def StageOutcome.wasted (o : StageOutcome) (model : Metamodel) (options : GenerationOptions) : List Halt :=
  o.halt.toList.filter fun h => wastesPair model options h.subject

/-- The bodies of the hash codes of a stage. -/
def StageOutcome.hashBodies (o : StageOutcome) : List (List Statement) :=
  o.artifacts.filterMap (·.hashCodeMethod)

/-- The draws of a stage: those for its hash codes, and then the one for the class that wasted a pair. -/
def StageOutcome.draws (o : StageOutcome) (model : Metamodel) (options : GenerationOptions) :
    List (Option (List Statement)) :=
  o.hashBodies.map some ++ (o.wasted model options).map fun _ => none

section Runs

variable {σ S : Type} [PrimeSource σ] {generator : Generator (StateM S)} {x y : σ × S}

theorem GeneratesAll.draws {done : List Done} (h : GeneratesAll generator x done y) :
    Draws x.1 ((done.filterMap (·.artifact.hashCodeMethod)).map some) y.1 := by
  induction h with
  | nil => exact .nil
  | @cons _ _ _ d rest head _ ih =>
    have hdraws := (draws_of_assemble head.1).append ih
    rw [drawsOf] at hdraws
    rw [List.filterMap_cons]
    cases hbody : d.artifact.hashCodeMethod with
    | none => simpa [hbody] using hdraws
    | some body => simpa [hbody] using hdraws

theorem StageRuns.draws {o : StageOutcome} (h : StageRuns generator x o y) :
    Draws x.1 (o.draws generator.model generator.options) y.1 := by
  cases h with
  | completed all =>
    have hdraws := all.draws
    simpa [StageOutcome.draws, StageOutcome.hashBodies, StageOutcome.artifacts, StageOutcome.wasted] using hdraws
  | @halted _ _ _ done halt all fails =>
    unfold Fails at fails
    split at fails
    -- The class was not assembled: it has no hash code, and may have wasted a pair.
    · next hnone =>
      have hdraws := all.draws.append (draws_of_assemble fails.1)
      rw [drawsOf] at hdraws
      by_cases hwaste : wastesPair generator.model generator.options halt.subject = true <;>
        simpa [StageOutcome.draws, StageOutcome.hashBodies, StageOutcome.artifacts, StageOutcome.wasted, hnone, hwaste,
          List.filterMap_map, Function.comp_def] using hdraws
    -- The class was assembled and not written: it has drawn what a written class draws.
    · next artifact hsome =>
      have hdraws := all.draws.append (draws_of_assemble fails.1)
      rw [drawsOf] at hdraws
      have hwaste := wastesPair_of_ok fails.1
      cases hbody : artifact.hashCodeMethod <;>
        simpa [StageOutcome.draws, StageOutcome.hashBodies, StageOutcome.artifacts, StageOutcome.wasted, hsome, hwaste,
          hbody, List.filterMap_map, Function.comp_def] using hdraws

/-- The draws of a run are those of its stages. -/
theorem StagesRun.draws {outcomes : List StageOutcome} (h : StagesRun generator x outcomes y) :
    Draws x.1 (outcomes.flatMap (·.draws generator.model generator.options)) y.1 := by
  induction h with
  | nil => exact .nil
  | cons head _ ih => exact head.draws.append ih

end Runs

/-- There are as many draws as hash codes and classes that wasted a pair. -/
theorem length_draws (model : Metamodel) (options : GenerationOptions) (outcomes : List StageOutcome) :
    (outcomes.flatMap (·.draws model options)).length
      = (outcomes.flatMap (·.hashBodies)).length + (outcomes.flatMap (·.wasted model options)).length := by
  induction outcomes with
  | nil => rfl
  | cons o rest ih =>
    have hstage : (o.draws model options).length = o.hashBodies.length + (o.wasted model options).length := by
      rw [StageOutcome.draws, List.length_append, List.length_map, List.length_map]
    rw [List.flatMap_cons, List.flatMap_cons, List.flatMap_cons, List.length_append, List.length_append,
      List.length_append, hstage, ih]
    omega

/-- Where no pair is wasted, all draws are for hash codes. -/
theorem draws_of_wasted_eq_nil {model : Metamodel} {options : GenerationOptions} {outcomes : List StageOutcome}
    (h : outcomes.flatMap (·.wasted model options) = []) :
    outcomes.flatMap (·.draws model options) = (outcomes.flatMap (·.hashBodies)).map some := by
  rw [List.map_flatMap]
  refine List.flatMap_congr fun o ho => ?_
  rw [StageOutcome.draws, List.flatMap_eq_nil_iff.mp h o ho, List.map_nil, List.append_nil]

theorem wasted_eq_nil_iff {model : Metamodel} {options : GenerationOptions} {outcomes : List StageOutcome} :
    outcomes.flatMap (·.wasted model options) = []
      ↔ ∀ o ∈ outcomes, ∀ halt ∈ o.halt, wastesPair model options halt.subject = false := by
  rw [List.flatMap_eq_nil_iff]
  refine forall₂_congr fun o _ => ?_
  rw [StageOutcome.wasted, List.filter_eq_nil_iff]
  simp [Option.mem_toList]

/-- The bodies of the hash codes of the registered classes, in the order of registration. -/
def Report.hashBodies (report : Report) : List (List Statement) :=
  report.catalogue.registered.filterMap (·.hashCodeMethod)

/-- The pairs that were drawn from `source` are those of the registered hash codes, one by one, and a class that could
not be assembled leaves the primes as they are. -/
structure MatchesDraws {σ S : Type} [PrimeSource σ] (generator : Generator (StateM S)) (source : σ) (after : Counted σ)
    (report : Report) (outcomes : List StageOutcome) : Prop where
  drawn_eq : after.drawn = report.hashBodies.length
  carried : List.Forall₂ Carries (takePairs after.drawn source).1 report.hashBodies
  failed : ∀ o ∈ outcomes, ∀ halt ∈ o.halt, halt.artifact = none →
    ∀ x y : Counted σ × S, Fails generator x halt y → y.1 = x.1

section Counting

variable {σ S : Type} [PrimeSource σ] {generator : Generator (StateM S)} {source : σ} {after : Counted σ} {s s' : S}
  {report : Report} {outcomes : List StageOutcome}

/-- The registered hash codes are those of the stages. -/
theorem RunsTo.hashBodies_eq {x y : σ × S} (h : RunsTo generator x y report outcomes) :
    report.hashBodies = outcomes.flatMap (·.hashBodies) := by
  rw [Report.hashBodies, h.registered_eq, List.filterMap_flatMap]
  rfl

/-- A pair is drawn for each registered hash code and for each class that wastes one. -/
theorem RunsTo.drawn_eq (h : RunsTo generator (Counted.mk source 0, s) (after, s') report outcomes) :
    after.drawn = report.hashBodies.length
      + (outcomes.flatMap (·.wasted generator.model generator.options)).length := by
  obtain ⟨hdrawn, -⟩ := h.runs.draws.counted
  rw [h.hashBodies_eq, ← length_draws, hdrawn]
  exact Nat.zero_add _

/-- The draws match the hash codes when no pair is wasted: one that is wasted is one too many. -/
theorem RunsTo.matchesDraws_iff (h : RunsTo generator (Counted.mk source 0, s) (after, s') report outcomes) :
    MatchesDraws generator source after report outcomes ↔ ∀ o ∈ outcomes, ∀ halt ∈ o.halt,
      wastesPair generator.model generator.options halt.subject = false := by
  have hcount := h.drawn_eq
  rw [← wasted_eq_nil_iff]
  constructor
  · intro hmatches
    have hequal := hmatches.drawn_eq
    exact List.eq_nil_of_length_eq_zero (by omega)
  · intro hwasted
    have hequal : after.drawn = report.hashBodies.length := by
      rw [hcount, hwasted]
      rfl
    obtain ⟨-, hpairs⟩ := h.runs.draws.counted
    refine ⟨hequal, ?_, ?_⟩
    · rw [draws_of_wasted_eq_nil hwasted, ← h.hashBodies_eq, List.length_map, List.forall₂_map_right_iff] at hpairs
      rw [hequal]
      exact hpairs.imp fun pair body hcarries => hcarries body rfl
    · intro o ho halt hhalt hnone x y hfails
      have hspared := wasted_eq_nil_iff.mp hwasted o ho halt hhalt
      rw [Fails, hnone] at hfails
      have hdraws := draws_of_assemble hfails.1
      rw [drawsOf, hspared] at hdraws
      exact hdraws.eq_of_nil

/-- Where all names that classes list for their texts are identifiers, no pair is wasted. -/
theorem RunsTo.wastesPair_eq_false {x y : Counted σ × S} (h : RunsTo generator x y report outcomes)
    (hnames : ∀ c ∈ generator.model.classes, ∀ name ∈ c.toStringMethod.attributes, isIdentifier name = true) :
    ∀ o ∈ outcomes, ∀ halt ∈ o.halt, wastesPair generator.model generator.options halt.subject = false := by
  intro o ho halt hhalt
  have hplanned : halt.subject ∈ outcomes.flatMap (·.planned) := by
    refine List.mem_flatMap.mpr ⟨o, ho, List.mem_append_right _ ?_⟩
    exact List.mem_flatMap.mpr ⟨halt, Option.mem_toList.mpr hhalt, List.mem_cons_self⟩
  have hclass := List.mem_of_mem_filter (h.planned_perm.mem_iff.mp hplanned)
  rw [Bool.eq_false_iff]
  intro hwaste
  obtain ⟨name, hname, hbad⟩ := exists_name_of_wastesPair hwaste
  exact absurd (hnames halt.subject hclass name hname) (by simp [hbad])

end Counting

/-- **Prime draws and hash codes.** Whatever the primes, the writer and the options: a run draws one pair for each
registered class with a hash code, and one more for each class that wastes a pair. When no class does, the pairs are
those of the registered hash codes, one by one, and classes that cannot be assembled draw nothing; when some class does,
they are not. No class wastes a pair when all names that classes list for their texts are identifiers. -/
theorem primes_match_hash_codes_iff {σ S : Type} [PrimeSource σ] {generator : Generator (StateM S)} {source : σ}
    {after : Counted σ} {s s' : S} {report : Report}
    (hrun : (generator.run (Counted.mk source 0)).run s = (.ok (report, after), s')) :
    ∃ outcomes, RunsTo generator (Counted.mk source 0, s) (after, s') report outcomes
      ∧ after.drawn = report.hashBodies.length
        + (outcomes.flatMap (·.wasted generator.model generator.options)).length
      ∧ (MatchesDraws generator source after report outcomes ↔ ∀ o ∈ outcomes, ∀ halt ∈ o.halt,
        wastesPair generator.model generator.options halt.subject = false)
      ∧ ((∀ c ∈ generator.model.classes, ∀ name ∈ c.toStringMethod.attributes, isIdentifier name = true) →
        MatchesDraws generator source after report outcomes) := by
  obtain ⟨outcomes, hruns⟩ := exists_runsTo hrun
  refine ⟨outcomes, hruns, hruns.drawn_eq, hruns.matchesDraws_iff, fun hnames => ?_⟩
  exact hruns.matchesDraws_iff.mpr (hruns.wastesPair_eq_false hnames)

/-- A person, who inherits an attribute whose name is no identifier and is shown by one attribute, and a note. Both have
hash codes over their own attributes. -/
def peopleAndNotes (shown : String) : Metamodel :=
  { Metamodel.empty "shop" with
    classes :=
      [{ ClassModel.empty "Base" .mappedSuperclass with
          generateSource := false, attributes := [.plain "first-name" "String"] },
        { ClassModel.empty "Person" .entity with
          superclass := some "Base", attributes := [.plain "id" "long"], hashCodeMethod := .of ["id"]
          toStringMethod := .of [shown] },
        { ClassModel.empty "Note" .bean with attributes := [.plain "id" "int"], hashCodeMethod := .of ["id"] }] }

/-- A run in memory that draws from two pairs. -/
def runOfPeopleAndNotes (shown : String) : Except GenerationError (Report × Counted PrimeSupply) × Sources :=
  runInMemory (peopleAndNotes shown) .standard (Counted.mk (.listed [⟨3, 11⟩, ⟨5, 13⟩]) 0)

/-- A person shown by the own attribute takes the first pair, and the note takes the second one. -/
theorem primes_match_hash_codes_of_id :
    ∃ (report : Report) (after : Counted PrimeSupply) (sources : Sources) (outcomes : List StageOutcome),
      runOfPeopleAndNotes "id" = (.ok (report, after), sources)
        ∧ after.drawn = 2
        ∧ report.hashBodies.map (·.head?) = [some (.startHash 3), some (.startHash 5)]
        ∧ MatchesDraws { model := peopleAndNotes "id", options := .standard, write := Sources.writer }
          (PrimeSupply.listed [⟨3, 11⟩, ⟨5, 13⟩]) after report outcomes := by
  obtain ⟨⟨report, after⟩, sources, hrun, hsummary⟩ :=
    exists_ok_of_summary (runOfPeopleAndNotes "id") (fun r => (r.2.drawn, r.1.hashBodies.map (·.head?)))
      (b := (2, [some (.startHash 3), some (.startHash 5)])) (by decide +kernel)
  rw [Prod.mk.injEq] at hsummary
  obtain ⟨outcomes, -, -, -, hmatches⟩ := primes_match_hash_codes_iff hrun
  exact ⟨report, after, sources, outcomes, hrun, hsummary.1, hsummary.2, hmatches (by decide)⟩

/-- A person shown by the inherited attribute fails with the first pair drawn, and the note has the second one. -/
theorem primes_shift_of_first_name :
    ∃ (report : Report) (after : Counted PrimeSupply) (sources : Sources),
      runOfPeopleAndNotes "first-name" = (.ok (report, after), sources)
        ∧ report.failures.map (·.error) = [.invalidInput "Person" (.memberName "first-name")]
        ∧ after.drawn = 2
        ∧ report.hashBodies.map (·.head?) = [some (.startHash 5)]
        ∧ ∀ outcomes, ¬MatchesDraws
          { model := peopleAndNotes "first-name", options := .standard, write := Sources.writer }
          (PrimeSupply.listed [⟨3, 11⟩, ⟨5, 13⟩]) after report outcomes := by
  obtain ⟨⟨report, after⟩, sources, hrun, hsummary⟩ :=
    exists_ok_of_summary (runOfPeopleAndNotes "first-name")
      (fun r => (r.1.failures.map (·.error), r.2.drawn, r.1.hashBodies.map (·.head?)))
      (b := ([.invalidInput "Person" (.memberName "first-name")], 2, [some (.startHash 5)])) (by decide +kernel)
  rw [Prod.mk.injEq, Prod.mk.injEq] at hsummary
  obtain ⟨hfailures, hcount, hheads⟩ := hsummary
  refine ⟨report, after, sources, hrun, hfailures, hcount, hheads, fun outcomes hmatches => ?_⟩
  have hdrawn : 2 = report.hashBodies.length := hcount.symm.trans hmatches.drawn_eq
  have hlength : report.hashBodies.length = 1 := by simpa using congrArg List.length hheads
  omega

end EntityForge
