import EntityForge.Proofs.Accounting
import EntityForge.Proofs.Agreement

/-!
# Steady runs

A class hands on two things to the classes after it: what is left of the primes, and the state of the writer. When the
supply repeats one pair of primes, and the writer's answers do not depend on its state, neither makes a difference: what
a stage comes to is then a function of its planned classes (`StageOutcome.ofClasses`).
-/

namespace EntityForge

/-! ## Supplies that repeat one pair -/

/-- However many pairs are drawn, all of them are the same. -/
def Repeats {σ : Type} [PrimeSource σ] (pair : PrimePair) (primes : σ) : Prop :=
  ∀ count, (takePairs count primes).1 = List.replicate count pair

/-- The first pair is the repeated one, and so are those after it. -/
theorem Repeats.next {σ : Type} [PrimeSource σ] {pair : PrimePair} {primes : σ}
    (h : Repeats pair primes) :
    (PrimeSource.next primes).1 = pair ∧ Repeats pair (PrimeSource.next primes).2 := by
  have hcons : ∀ count, (PrimeSource.next primes).1 = pair
      ∧ (takePairs count (PrimeSource.next primes).2).1 = List.replicate count pair := by
    intro count
    have hcount := h (count + 1)
    rw [takePairs, List.replicate_succ] at hcount
    exact List.cons.inj hcount
  exact ⟨(hcons 0).1, fun count => (hcons count).2⟩

namespace PrimeSupply

/-- A supply whose next pair is `pair`, and which is as before afterwards, repeats `pair`. -/
theorem repeats_of_next_eq {pair : PrimePair} (supply : PrimeSupply)
    (h : supply.next = (pair, supply)) : Repeats pair supply := by
  intro count
  induction count with
  | zero => rfl
  | succ count ih =>
    rw [takePairs, List.replicate_succ]
    change (supply.next.1 :: (takePairs count supply.next.2).1) = _
    rw [h, ih]

theorem repeats_fixed (pair : PrimePair) : Repeats pair (PrimeSupply.fixed pair) :=
  repeats_of_next_eq _ rfl

/-- A supply that shares a pair repeats the first pair of its source. -/
theorem repeats_shared (source : PrimeSupply) :
    Repeats source.next.1 (PrimeSupply.shared none source) := by
  intro count
  cases count with
  | zero => rfl
  | succ count =>
    rw [takePairs, List.replicate_succ]
    exact congrArg (source.next.1 :: ·)
      (repeats_of_next_eq (.shared (some source.next.1) source.next.2) rfl count)

end PrimeSupply

namespace GenerationOptions

/-- The options under which all hash codes of a run are written with one pair that entropy has no part in: the fixed
pair, or the first pair drawn from a given seed. -/
def Settled (options : GenerationOptions) : Prop :=
  options.hashPolicy = .fixed ∨ options.hashPolicy = .sharedPerRun ∧ options.hashSeed.isSome

/-- Settled options repeat one pair. -/
theorem Settled.repeats {options : GenerationOptions} (h : options.Settled) :
    ∃ pair, ∀ entropy, Repeats pair (options.supply entropy) := by
  rcases h with hfixed | ⟨hshared, hseed⟩
  · refine ⟨.standard, fun entropy => ?_⟩
    rw [supply, hfixed]
    exact PrimeSupply.repeats_fixed .standard
  · obtain ⟨seed, hseed⟩ := Option.isSome_iff_exists.mp hseed
    refine ⟨(PrimeSupply.seeded seed 0).next.1, fun entropy => ?_⟩
    rw [supply, hshared, hseed]
    exact PrimeSupply.repeats_shared _

end GenerationOptions

/-- The options under which all classes have the standard primes. -/
def fixedOptions : GenerationOptions :=
  { GenerationOptions.standard with hashPolicy := .fixed }

theorem settled_fixedOptions : fixedOptions.Settled :=
  Or.inl rfl

/-- The class of the metamodel as it is generated when its hash code is written with `pair`. -/
def assembleWith (model : Metamodel) (options : GenerationOptions) (pair : PrimePair)
    (c : ClassModel) : Except GenerationError JavaClass :=
  (assemble model options c (PrimeSupply.fixed pair)).1

/-- In metamodels that agree, all classes are assembled to the same results. -/
theorem assembleWith_eq_of_agrees {model other : Metamodel} (h : model.Agrees other)
    (options : GenerationOptions) (pair : PrimePair) :
    assembleWith other options pair = assembleWith model options pair := by
  funext c
  unfold assembleWith
  rw [assemble_eq_of_agrees h]

/-- A supply that repeats a pair assembles a class with that pair, and repeats it afterwards. -/
theorem assemble_of_repeats {σ : Type} [PrimeSource σ] {pair : PrimePair} {primes : σ}
    (h : Repeats pair primes) (model : Metamodel) (options : GenerationOptions) (c : ClassModel) :
    (assemble model options c primes).1 = assembleWith model options pair c
      ∧ Repeats pair (assemble model options c primes).2 := by
  unfold assembleWith assemble
  split
  · exact ⟨rfl, h⟩
  · next draft _ =>
    obtain ⟨hnext, hrest⟩ := h.next
    cases draft.usesPrimes with
    | false => exact ⟨rfl, h⟩
    | true =>
      constructor
      · change (draft.finish (PrimeSource.next primes).1).mapError _ = _
        rw [hnext]
        rfl
      · exact hrest

/-! ## Writers that answer alike -/

/-- Whatever the writer did before, it answers for each class as `answer` says. -/
def Writer.Answers {S : Type} (write : Writer (StateM S))
    (answer : JavaClass → Except GenerationError WrittenUnit) : Prop :=
  ∀ c s, ((write c).run s).1 = answer c

/-- Keeping sources in memory never fails. -/
theorem Sources.writer_answers : Sources.writer.Answers fun c => .ok (.ofClass c none) :=
  fun _ _ => rfl

/-! ## Outcomes as a function of the classes -/

namespace StageOutcome

/-- What a stage comes to when `assembled` is what becomes of a class and `answer` what the writer says of it: classes
are generated one after the other, up to the first that fails. -/
def ofClasses (assembled : ClassModel → Except GenerationError JavaClass)
    (answer : JavaClass → Except GenerationError WrittenUnit) (stage : Stage) :
    List ClassModel → StageOutcome
  | [] => { stage, done := [], halt := none }
  | c :: rest =>
    match assembled c with
    | .error error =>
      { stage, done := [], halt := some { subject := c, artifact := none, error, skipped := rest } }
    | .ok artifact =>
      match answer artifact with
      | .error error =>
        { stage, done := []
          halt := some { subject := c, artifact := some artifact, error, skipped := rest } }
      | .ok unit =>
        let others := ofClasses assembled answer stage rest
        { others with done := { subject := c, artifact, unit } :: others.done }

variable {assembled : ClassModel → Except GenerationError JavaClass}
  {answer : JavaClass → Except GenerationError WrittenUnit} {stage : Stage}

theorem ofClasses_cons_of_done {c : ClassModel} {artifact : JavaClass} {unit : WrittenUnit}
    (hassembled : assembled c = .ok artifact) (hanswer : answer artifact = .ok unit)
    (rest : List ClassModel) :
    ofClasses assembled answer stage (c :: rest)
      = { ofClasses assembled answer stage rest with
          done := ⟨c, artifact, unit⟩ :: (ofClasses assembled answer stage rest).done } := by
  simp only [ofClasses, hassembled, hanswer]

/-- No class ends the stage exactly when all can be assembled and written. -/
theorem ofClasses_halt_eq_none_iff {classes : List ClassModel} :
    (ofClasses assembled answer stage classes).halt = none
      ↔ ∀ c ∈ classes, ∃ artifact unit, assembled c = .ok artifact ∧ answer artifact = .ok unit := by
  induction classes with
  | nil => simp [ofClasses]
  | cons c rest ih =>
    rw [List.forall_mem_cons, ← ih]
    cases hassembled : assembled c with
    | error e => simp [ofClasses, hassembled]
    | ok artifact =>
      cases hanswer : answer artifact with
      | error e => simp [ofClasses, hassembled, hanswer]
      | ok unit =>
        rw [ofClasses_cons_of_done hassembled hanswer]
        simp [hanswer]

/-- A stage that no class ends generates all its classes. -/
theorem artifacts_ofClasses {classes : List ClassModel}
    (h : (ofClasses assembled answer stage classes).halt = none) :
    (ofClasses assembled answer stage classes).artifacts
      = classes.filterMap fun c => (assembled c).toOption := by
  induction classes with
  | nil => rfl
  | cons c rest ih =>
    obtain ⟨⟨artifact, unit, hassembled, hanswer⟩, -⟩ :=
      List.forall_mem_cons.mp (ofClasses_halt_eq_none_iff.mp h)
    rw [ofClasses_cons_of_done hassembled hanswer] at h ⊢
    rw [List.filterMap_cons, hassembled]
    change artifact :: (ofClasses assembled answer stage rest).artifacts = _
    rw [ih h]
    rfl

end StageOutcome

/-! ## Runs and their outcomes -/

/-- The run of a generator reports what its stages came to: each stage dealt with its planned classes, and `before` and
`after` are the primes and the state of the writer before and after the run. -/
structure RunsTo {σ S : Type} [PrimeSource σ] (generator : Generator (StateM S)) (before after : σ × S)
    (report : Report) (outcomes : List StageOutcome) : Prop where
  plan : generator.model.plan = .ok (outcomes.map (·.plan))
  runs : StagesRun generator before outcomes after
  report_eq : report = Report.empty.afterAll outcomes

namespace RunsTo

variable {σ S : Type} [PrimeSource σ] {generator : Generator (StateM S)} {before after : σ × S}
  {report : Report} {outcomes : List StageOutcome}

theorem stages (h : RunsTo generator before after report outcomes) :
    outcomes.map (·.stage) = Spelled.values := by
  rw [← (plan_spec h.plan).1, List.map_map]
  rfl

theorem nodup_stages (h : RunsTo generator before after report outcomes) :
    (outcomes.map (·.stage)).Nodup := by
  rw [h.stages]
  decide

/-- Every stage comes to something. -/
theorem exists_outcome (h : RunsTo generator before after report outcomes) (stage : Stage) :
    ∃ o ∈ outcomes, o.stage = stage := by
  have hmem : stage ∈ outcomes.map (·.stage) := h.stages ▸ Spelled.mem_values stage
  exact List.mem_map.mp hmem

theorem ordered (h : RunsTo generator before after report outcomes) :
    ∀ o ∈ outcomes,
      orderClasses generator.model o.stage (o.stage.classes generator.model) = .ok o.planned :=
  fun o ho => (plan_spec h.plan).2 o.plan (List.mem_map_of_mem ho)

/-- The planned classes are those that are to be generated. -/
theorem planned_perm (h : RunsTo generator before after report outcomes) :
    (outcomes.flatMap (·.planned)).Perm (generator.model.classes.filter (·.generateSource)) :=
  flatMap_planned_perm h.stages h.ordered

/-- The planned classes of a stage are of its kinds. -/
theorem kinds (h : RunsTo generator before after report outcomes) :
    ∀ o ∈ outcomes, ∀ c ∈ o.planned, Stage.ofKind c.kind = o.stage := fun o ho _ hc =>
  (Stage.mem_classes_iff.mp ((orderClasses_perm (h.ordered o ho)).mem_iff.mp hc)).2.2

/-- What is registered under a kind comes from the stage of that kind. -/
theorem ofKind_eq (h : RunsTo generator before after report outcomes) {o : StageOutcome}
    (ho : o ∈ outcomes) {kind : ClassKind} (hkind : Stage.ofKind kind = o.stage) :
    report.catalogue.ofKind kind = o.artifactsOfKind kind := by
  rw [h.report_eq]
  exact h.runs.ofKind_afterAll h.nodup_stages h.kinds ho (Stage.mem_kinds_iff.mpr hkind)

theorem registered_eq (h : RunsTo generator before after report outcomes) :
    report.catalogue.registered = outcomes.flatMap (·.artifacts) := by
  rw [h.report_eq, Report.registered_afterAll_empty]

end RunsTo

/-- A run that returns a report reports what its stages came to. -/
theorem exists_runsTo {σ S : Type} [PrimeSource σ] {generator : Generator (StateM S)}
    {primes primes' : σ} {s s' : S} {report : Report}
    (h : (generator.run primes).run s = (.ok (report, primes'), s')) :
    ∃ outcomes, RunsTo generator (primes, s) (primes', s') report outcomes := by
  obtain ⟨outcomes, hplan, hruns, hreport⟩ := exists_outcomes_of_run h
  exact ⟨outcomes, hplan, hruns, hreport⟩

/-- Once there are plans for all stages, a run returns a report on what they came to. -/
theorem exists_runsTo_of_plan {σ S : Type} [PrimeSource σ] {generator : Generator (StateM S)}
    {plans : List StagePlan} (hplan : generator.model.plan = .ok plans) (primes : σ) (s : S) :
    ∃ (report : Report) (primes' : σ) (s' : S) (outcomes : List StageOutcome),
      (generator.run primes).run s = (.ok (report, primes'), s')
      ∧ RunsTo generator (primes, s) (primes', s') report outcomes := by
  obtain ⟨outcomes, primes', s', hplans, hruns, hrun⟩ := exists_outcomes_of_plan hplan primes s
  exact ⟨_, primes', s', outcomes, hrun, hplans, hruns, rfl⟩

/-- What can be said of a run that returns a report can be said of its report. -/
theorem exists_report {S α : Type} (result : Except GenerationError (Report × PrimeSupply) × S)
    (summary : Report → α) {a : α} (h : (result.1.map fun r => summary r.1).toOption = some a) :
    ∃ report primes t, result = (.ok (report, primes), t) ∧ summary report = a := by
  have hmap : result.1.toOption.map (fun r => summary r.1) = some a := by
    rw [← h]
    cases result.1 <;> rfl
  obtain ⟨r, t, hresult, hsummary⟩ := exists_ok_of_summary result _ hmap
  exact ⟨r.1, r.2, t, hresult, hsummary⟩

/-! ## Steady runs -/

section Steady

variable {σ S : Type} [PrimeSource σ] {generator : Generator (StateM S)} {pair : PrimePair}
  {answer : JavaClass → Except GenerationError WrittenUnit} {x y z : σ × S}

/-- What becomes of a class in the runs of a generator whose supply repeats `pair`. -/
def Generator.assembled (generator : Generator (StateM S)) (pair : PrimePair) :
    ClassModel → Except GenerationError JavaClass :=
  assembleWith generator.model generator.options pair

theorem Generates.steady {d : Done} (h : Generates generator x d y) (hprimes : Repeats pair x.1)
    (hwrite : generator.write.Answers answer) :
    generator.assembled pair d.subject = .ok d.artifact ∧ answer d.artifact = .ok d.unit
      ∧ Repeats pair y.1 := by
  obtain ⟨hassemble, hrun⟩ := h
  obtain ⟨hresult, hrest⟩ :=
    assemble_of_repeats hprimes generator.model generator.options d.subject
  rw [hassemble] at hresult hrest
  have hanswer := hwrite d.artifact x.2
  rw [hrun] at hanswer
  exact ⟨hresult.symm, hanswer.symm, hrest⟩

/-- Before all classes that were generated stands what the classes after them come to. -/
theorem GeneratesAll.steady {done : List Done} (h : GeneratesAll generator x done y)
    (hprimes : Repeats pair x.1) (hwrite : generator.write.Answers answer) (stage : Stage)
    (rest : List ClassModel) :
    Repeats pair y.1
      ∧ StageOutcome.ofClasses (generator.assembled pair) answer stage (done.map (·.subject) ++ rest)
        = { StageOutcome.ofClasses (generator.assembled pair) answer stage rest with
            done := done
              ++ (StageOutcome.ofClasses (generator.assembled pair) answer stage rest).done } := by
  induction h with
  | nil => exact ⟨hprimes, rfl⟩
  | cons head _ ih =>
    obtain ⟨hassembled, hanswer, hnext⟩ := head.steady hprimes hwrite
    obtain ⟨hrepeats, heq⟩ := ih hnext
    refine ⟨hrepeats, ?_⟩
    rw [List.map_cons, List.cons_append, StageOutcome.ofClasses_cons_of_done hassembled hanswer, heq]
    rfl

/-- In a steady run, a stage comes to what its planned classes say. -/
theorem StageRuns.steady {o : StageOutcome} (h : StageRuns generator x o z)
    (hprimes : Repeats pair x.1) (hwrite : generator.write.Answers answer) :
    Repeats pair z.1
      ∧ o = StageOutcome.ofClasses (generator.assembled pair) answer o.stage o.planned := by
  cases h with
  | @completed _ stage done all =>
    obtain ⟨hrepeats, heq⟩ := all.steady hprimes hwrite stage []
    refine ⟨hrepeats, ?_⟩
    change _ = StageOutcome.ofClasses _ _ stage (done.map (·.subject) ++ [])
    rw [heq]
    simp [StageOutcome.ofClasses]
  | @halted y _ stage done halt all fails =>
    obtain ⟨hrepeats, heq⟩ := all.steady hprimes hwrite stage (halt.subject :: halt.skipped)
    obtain ⟨hresult, hrest⟩ :=
      assemble_of_repeats hrepeats generator.model generator.options halt.subject
    have hplanned : StageOutcome.planned { stage, done, halt := some halt }
        = done.map (·.subject) ++ halt.subject :: halt.skipped := by
      simp [StageOutcome.planned]
    rw [hplanned, heq]
    obtain ⟨subject, artifact, error, skipped⟩ := halt
    cases artifact with
    -- The class could not be assembled.
    | none =>
      obtain ⟨hassemble, -⟩ := fails
      simp only at hassemble hresult hrest ⊢
      rw [hassemble] at hresult hrest
      have hassembled : generator.assembled pair subject = .error error := hresult.symm
      exact ⟨hrest, by simp [StageOutcome.ofClasses, hassembled]⟩
    -- The class could not be written.
    | some artifact =>
      obtain ⟨hassemble, hrun⟩ := fails
      simp only at hassemble hresult hrest hrun ⊢
      rw [hassemble] at hresult hrest
      have hassembled : generator.assembled pair subject = .ok artifact := hresult.symm
      have hanswer := hwrite artifact y.2
      rw [hrun] at hanswer
      exact ⟨hrest, by simp [StageOutcome.ofClasses, hassembled, ← hanswer]⟩

/-- In a steady run, every stage comes to what its planned classes say. -/
theorem StagesRun.steady {outcomes : List StageOutcome} (h : StagesRun generator x outcomes z)
    (hprimes : Repeats pair x.1) (hwrite : generator.write.Answers answer) :
    ∀ o ∈ outcomes,
      o = StageOutcome.ofClasses (generator.assembled pair) answer o.stage o.planned := by
  induction h with
  | nil => simp
  | cons head _ ih =>
    obtain ⟨hrepeats, ho⟩ := head.steady hprimes hwrite
    intro other hother
    rcases List.mem_cons.mp hother with rfl | hother
    · exact ho
    · exact ih hrepeats other hother

end Steady

end EntityForge
