import EntityForge.Proofs.Steadiness

/-!
# The order of declaration

The classes of a metamodel are declared in another order. When all names are different, each name stands for the same
class as before, so each class is assembled as before; only the order in which the classes of a stage are planned may
change. A steady run that dealt with all its classes then deals with all of them again, and leaves the same sources in
memory.

Main statement: `runInMemory_of_perm`.
-/

namespace EntityForge

/-! ## Metamodels with another order of declaration -/

section Order

variable {model : Metamodel} {classes : List ClassModel}

/-- When all names are different, a class is found under its name. -/
theorem Metamodel.class?_eq_some_iff (hdistinct : (model.classes.map (·.name)).Nodup)
    {name : String} {c : ClassModel} :
    model.class? name = some c ↔ c ∈ model.classes ∧ c.name = name :=
  find?_eq_some_iff_of_nodup hdistinct

theorem nodup_names_of_perm (hdistinct : (model.classes.map (·.name)).Nodup)
    (hperm : classes.Perm model.classes) :
    (({ model with classes } : Metamodel).classes.map (·.name)).Nodup :=
  (hperm.map _).nodup_iff.mpr hdistinct

/-- Each name stands for the same class. -/
theorem class?_of_perm (hdistinct : (model.classes.map (·.name)).Nodup)
    (hperm : classes.Perm model.classes) :
    ({ model with classes } : Metamodel).class? = model.class? := by
  funext name
  apply Option.ext
  intro c
  rw [Metamodel.class?_eq_some_iff hdistinct,
    Metamodel.class?_eq_some_iff (nodup_names_of_perm hdistinct hperm)]
  show c ∈ classes ∧ c.name = name ↔ c ∈ model.classes ∧ c.name = name
  rw [hperm.mem_iff]

theorem agrees_of_perm (hdistinct : (model.classes.map (·.name)).Nodup)
    (hperm : classes.Perm model.classes) : model.Agrees { model with classes } where
  package := rfl
  bindingSupport := rfl
  interfaces := rfl
  snippets := rfl
  class? name := by
    rw [class?_of_perm hdistinct hperm]
    cases model.class? name with
    | none => exact .none
    | some c => exact .some (.refl c)

/-- The superclasses of a class can be followed to their end, or not, whatever the order of declaration. -/
theorem broken_of_perm (hdistinct : (model.classes.map (·.name)).Nodup)
    (hperm : classes.Perm model.classes) (c : ClassModel) :
    ({ model with classes } : Metamodel).Broken c ↔ model.Broken c := by
  have hclass := class?_of_perm hdistinct hperm
  have hextends : ({ model with classes } : Metamodel).Extends = model.Extends := by
    funext d p
    unfold Metamodel.Extends
    rw [hclass]
  unfold Metamodel.Broken Metamodel.Dangles Metamodel.Loops
  rw [hextends, hclass]

/-- There is a plan, or none, whatever the order of declaration. -/
theorem exists_plan_of_perm (hdistinct : (model.classes.map (·.name)).Nodup)
    (hperm : classes.Perm model.classes) (hplan : ∃ plans, model.plan = .ok plans) :
    ∃ plans, ({ model with classes } : Metamodel).plan = .ok plans := by
  rw [plan_eq_ok_iff (nodup_names_of_perm hdistinct hperm)]
  rw [plan_eq_ok_iff hdistinct] at hplan
  intro c hc hgenerate
  rw [broken_of_perm hdistinct hperm]
  exact hplan c (hperm.mem_iff.mp hc) hgenerate

end Order

/-! ## Runs without failures -/

section Success

variable {S : Type} {generator : Generator (StateM S)} {pair : PrimePair}
  {answer : JavaClass → Except GenerationError WrittenUnit} {x y : PrimeSupply × S}
  {report : Report} {outcomes : List StageOutcome}

/-- A run has no failures when no class ended its stage. -/
theorem RunsTo.isSuccess_iff_halt (h : RunsTo generator x y report outcomes) :
    report.isSuccess = true ↔ ∀ o ∈ outcomes, o.halt = none := by
  have hfailures : report.failures = outcomes.flatMap (·.failures) := by
    rw [h.report_eq]
    rfl
  rw [Report.isSuccess, List.isEmpty_iff, hfailures, List.flatMap_eq_nil_iff]
  refine forall₂_congr fun o _ => ?_
  rw [StageOutcome.failures, List.map_eq_nil_iff, Option.toList_eq_nil_iff]

/-- A steady run has no failures exactly when every class that is to be generated can be assembled and written. -/
theorem RunsTo.isSuccess_iff (h : RunsTo generator x y report outcomes) (hprimes : Repeats pair x.1)
    (hwrite : generator.write.Answers answer) :
    report.isSuccess = true ↔ ∀ c ∈ generator.model.classes, c.generateSource = true →
      ∃ artifact unit, generator.assembled pair c = .ok artifact ∧ answer artifact = .ok unit := by
  have hplanned : ∀ c, (∃ o ∈ outcomes, c ∈ o.planned)
      ↔ c ∈ generator.model.classes ∧ c.generateSource = true := by
    intro c
    rw [← List.mem_flatMap, h.planned_perm.mem_iff, List.mem_filter]
  rw [h.isSuccess_iff_halt]
  have hsteady := h.runs.steady hprimes hwrite
  constructor
  · intro hhalt c hc hgenerate
    obtain ⟨o, ho, hmem⟩ := (hplanned c).mpr ⟨hc, hgenerate⟩
    have hnone := hhalt o ho
    rw [hsteady o ho] at hnone
    exact StageOutcome.ofClasses_halt_eq_none_iff.mp hnone c hmem
  · intro hall o ho
    rw [hsteady o ho, StageOutcome.ofClasses_halt_eq_none_iff]
    intro c hmem
    obtain ⟨hc, hgenerate⟩ := (hplanned c).mp ⟨o, ho, hmem⟩
    exact hall c hc hgenerate

/-- A steady run without failures registers what is assembled from the classes that are to be generated. -/
theorem RunsTo.registered_perm (h : RunsTo generator x y report outcomes)
    (hprimes : Repeats pair x.1) (hwrite : generator.write.Answers answer)
    (hsuccess : report.isSuccess = true) :
    report.catalogue.registered.Perm
      ((generator.model.classes.filter (·.generateSource)).filterMap
        fun c => (generator.assembled pair c).toOption) := by
  have hartifacts : ∀ o ∈ outcomes,
      o.artifacts = o.planned.filterMap fun c => (generator.assembled pair c).toOption := by
    intro o ho
    have hnone := h.isSuccess_iff_halt.mp hsuccess o ho
    have hsteady := h.runs.steady hprimes hwrite o ho
    rw [hsteady] at hnone
    rw [← StageOutcome.artifacts_ofClasses hnone, ← hsteady]
  rw [h.registered_eq, List.flatMap_congr hartifacts, ← List.filterMap_flatMap]
  exact h.planned_perm.filterMap _

end Success

/-! ## Runs in memory -/

section Memory

variable {σ : Type} [PrimeSource σ] {generator : Generator (StateM Sources)} {x y z : σ × Sources}

/-- A class that was written in memory is among the sources. -/
theorem Generates.inMemory {d : Done} (h : Generates generator x d y)
    (hwriter : generator.write = Sources.writer) :
    d.unit = .ofClass d.artifact none ∧ y.2 = x.2.put d.artifact := by
  obtain ⟨-, hrun⟩ := h
  rw [hwriter] at hrun
  have hresult : (Except.ok (WrittenUnit.ofClass d.artifact none), x.2.put d.artifact)
      = (Except.ok d.unit, y.2) := hrun
  rw [Prod.mk.injEq, Except.ok.injEq] at hresult
  exact ⟨hresult.1.symm, hresult.2.symm⟩

/-- A class that failed leaves the sources as they are, since keeping them in memory cannot fail. -/
theorem Fails.inMemory {halt : Halt} (h : Fails generator x halt y)
    (hwriter : generator.write = Sources.writer) : halt.artifact = none ∧ y.2 = x.2 := by
  unfold Fails at h
  split at h
  · next hnone => exact ⟨hnone, h.2⟩
  · next artifact _ =>
    obtain ⟨-, hrun⟩ := h
    rw [hwriter] at hrun
    cases hrun

theorem GeneratesAll.inMemory {done : List Done} (h : GeneratesAll generator x done y)
    (hwriter : generator.write = Sources.writer) :
    done.map (·.unit) = (done.map (·.artifact)).map (.ofClass · none)
      ∧ y.2 = (done.map (·.artifact)).foldl Sources.put x.2 := by
  induction h with
  | nil => exact ⟨rfl, rfl⟩
  | cons head _ ih =>
    obtain ⟨hunit, hput⟩ := head.inMemory hwriter
    obtain ⟨hunits, hputs⟩ := ih
    rw [hput] at hputs
    refine ⟨?_, hputs⟩
    rw [List.map_cons, List.map_cons, List.map_cons, hunit, hunits]

theorem StageRuns.inMemory {o : StageOutcome} (h : StageRuns generator x o z)
    (hwriter : generator.write = Sources.writer) :
    o.units = o.artifacts.map (.ofClass · none) ∧ z.2 = o.artifacts.foldl Sources.put x.2 := by
  cases h with
  | completed all => simpa [StageOutcome.units, StageOutcome.artifacts] using all.inMemory hwriter
  | halted all fails =>
    obtain ⟨hnone, hsame⟩ := fails.inMemory hwriter
    simpa [StageOutcome.units, StageOutcome.artifacts, hnone, hsame] using all.inMemory hwriter

theorem StagesRun.inMemory {outcomes : List StageOutcome} (h : StagesRun generator x outcomes z)
    (hwriter : generator.write = Sources.writer) :
    outcomes.flatMap (·.units) = (outcomes.flatMap (·.artifacts)).map (.ofClass · none)
      ∧ z.2 = (outcomes.flatMap (·.artifacts)).foldl Sources.put x.2 := by
  induction h with
  | nil => exact ⟨rfl, rfl⟩
  | cons head _ ih =>
    obtain ⟨hunits, hputs⟩ := head.inMemory hwriter
    obtain ⟨hrest, hlast⟩ := ih
    rw [List.flatMap_cons, List.flatMap_cons, List.map_append, List.foldl_append, hunits, hrest,
      ← hputs]
    exact ⟨rfl, hlast⟩

/-- A run in memory writes what it registers, and keeps the sources of exactly these classes. -/
theorem RunsTo.inMemory {report : Report} {outcomes : List StageOutcome}
    (h : RunsTo generator x z report outcomes) (hwriter : generator.write = Sources.writer) :
    report.written = report.catalogue.registered.map (.ofClass · none)
      ∧ z.2 = report.catalogue.registered.foldl Sources.put x.2 := by
  have hwritten : report.written = outcomes.flatMap (·.units) := by
    rw [h.report_eq]
    rfl
  rw [hwritten, h.registered_eq]
  exact h.runs.inMemory hwriter

end Memory

/-- Sources of classes with different full names may be put in any order. -/
theorem foldl_put_of_perm {artifacts others : List JavaClass} (hperm : others.Perm artifacts)
    (hdistinct : ∀ a ∈ artifacts, ∀ b ∈ artifacts, a.qualifiedName = b.qualifiedName → a = b)
    (sources : Sources) : others.foldl Sources.put sources = artifacts.foldl Sources.put sources := by
  refine hperm.foldl_eq' ?_ sources
  intro a ha b hb table
  by_cases hne : a.qualifiedName = b.qualifiedName
  · rw [hdistinct a (hperm.mem_iff.mp ha) b (hperm.mem_iff.mp hb) hne]
  · unfold Sources.put
    rw [Text.putSorted_comm hne]

/-! ## Full names -/

section Names

variable {model : Metamodel} {options : GenerationOptions} {pair : PrimePair} {c d : ClassModel}
  {artifact other : JavaClass}

/-- The name of a class that can be assembled is what its full name ends in. -/
theorem simpleName_of_assembleWith (h : assembleWith model options pair c = .ok artifact) :
    simpleName artifact.qualifiedName = c.name := by
  have hassemble : assemble model options c (PrimeSupply.fixed pair)
      = (.ok artifact, (assemble model options c (PrimeSupply.fixed pair)).2) := Prod.ext h rfl
  obtain ⟨parts, -⟩ := exists_parts_of_assemble_eq_ok hassemble
  obtain ⟨-, -, hname⟩ := assemble_identity hassemble
  rw [hname, ClassModel.qualifiedName]
  exact simpleName_qualify (Java.dot_not_mem_of_isIdentifier parts.className)

/-- When all names are different, assembled classes of one full name are the same. -/
theorem eq_of_qualifiedName_eq (hdistinct : (model.classes.map (·.name)).Nodup)
    (hc : c ∈ model.classes) (hd : d ∈ model.classes)
    (hartifact : assembleWith model options pair c = .ok artifact)
    (hother : assembleWith model options pair d = .ok other)
    (hname : artifact.qualifiedName = other.qualifiedName) : artifact = other := by
  have hcd : c.name = d.name := by
    rw [← simpleName_of_assembleWith hartifact, ← simpleName_of_assembleWith hother, hname]
  rw [eq_of_name_eq hdistinct hc hd hcd] at hartifact
  exact Except.ok.inj (hartifact.symm.trans hother)

/-- A steady run without failures registers no two classes under one full name. -/
theorem RunsTo.eq_of_qualifiedName_eq {S : Type} {generator : Generator (StateM S)}
    {answer : JavaClass → Except GenerationError WrittenUnit} {x y : PrimeSupply × S}
    {report : Report} {outcomes : List StageOutcome} (h : RunsTo generator x y report outcomes)
    (hprimes : Repeats pair x.1) (hwrite : generator.write.Answers answer)
    (hsuccess : report.isSuccess = true)
    (hdistinct : (generator.model.classes.map (·.name)).Nodup) :
    ∀ a ∈ report.catalogue.registered, ∀ b ∈ report.catalogue.registered,
      a.qualifiedName = b.qualifiedName → a = b := by
  have hfrom := h.registered_perm hprimes hwrite hsuccess
  intro a ha b hb hname
  obtain ⟨c, hc, hca⟩ := List.mem_filterMap.mp (hfrom.mem_iff.mp ha)
  obtain ⟨d, hd, hdb⟩ := List.mem_filterMap.mp (hfrom.mem_iff.mp hb)
  exact EntityForge.eq_of_qualifiedName_eq hdistinct (List.mem_of_mem_filter hc)
    (List.mem_of_mem_filter hd) (toOption_eq_some_iff.mp hca) (toOption_eq_some_iff.mp hdb) hname

end Names

/-- **The order of declaration.** When all class names are different and a run in memory has no failures, the classes
may be declared in any other order: the run again has no failures and leaves the same sources. It registers and writes
the same classes, though maybe in another order. -/
theorem runInMemory_of_perm {model : Metamodel} {classes : List ClassModel}
    {options : GenerationOptions} {entropy : UInt64} {report : Report} {primes : PrimeSupply}
    {sources : Sources} (hdistinct : (model.classes.map (·.name)).Nodup)
    (hperm : classes.Perm model.classes) (hsettled : options.Settled)
    (hrun : runInMemory model options (options.supply entropy) = (.ok (report, primes), sources))
    (hsuccess : report.isSuccess = true) (entropy' : UInt64) :
    ∃ report' primes',
      runInMemory { model with classes } options (options.supply entropy')
          = (.ok (report', primes'), sources)
        ∧ report'.isSuccess = true
        ∧ report'.catalogue.registered.Perm report.catalogue.registered
        ∧ report'.written.Perm report.written := by
  obtain ⟨pair, hpair⟩ := hsettled.repeats
  obtain ⟨outcomes, hruns⟩ := exists_runsTo hrun
  let generator : Generator (StateM Sources) :=
    { model := { model with classes }, options, write := Sources.writer }
  have hplans : ∃ plans, generator.model.plan = .ok plans :=
    exists_plan_of_perm hdistinct hperm ⟨_, hruns.plan⟩
  obtain ⟨plans, hplan⟩ := hplans
  obtain ⟨report', primes', sources', outcomes', hrun', hruns'⟩ :=
    exists_runsTo_of_plan hplan (options.supply entropy') Sources.empty
  -- Each class is assembled as before.
  have hassembled : assembleWith { model with classes } options pair
      = assembleWith model options pair :=
    assembleWith_eq_of_agrees (agrees_of_perm hdistinct hperm) options pair
  have hall := (hruns.isSuccess_iff (hpair entropy) Sources.writer_answers).mp hsuccess
  have hsuccess' : report'.isSuccess = true := by
    rw [hruns'.isSuccess_iff (hpair entropy') Sources.writer_answers]
    intro c hc hgenerate
    obtain ⟨artifact, unit, hartifact, hunit⟩ := hall c (hperm.mem_iff.mp hc) hgenerate
    refine ⟨artifact, unit, ?_, hunit⟩
    show assembleWith { model with classes } options pair c = .ok artifact
    rw [hassembled]
    exact hartifact
  -- What is registered comes from the same classes in both runs.
  have hfrom := hruns.registered_perm (hpair entropy) Sources.writer_answers hsuccess
  have hfrom' : report'.catalogue.registered.Perm
      ((classes.filter (·.generateSource)).filterMap
        fun c => (assembleWith { model with classes } options pair c).toOption) :=
    hruns'.registered_perm (hpair entropy') Sources.writer_answers hsuccess'
  rw [hassembled] at hfrom'
  have hregistered : report'.catalogue.registered.Perm report.catalogue.registered :=
    hfrom'.trans ((hperm.filter _).filterMap _ |>.trans hfrom.symm)
  have hnames :=
    hruns.eq_of_qualifiedName_eq (hpair entropy) Sources.writer_answers hsuccess hdistinct
  obtain ⟨hwritten, hsources⟩ := hruns.inMemory rfl
  obtain ⟨hwritten', hsources'⟩ := hruns'.inMemory rfl
  have hsame : sources' = sources := by
    show (primes', sources').2 = (primes, sources).2
    rw [hsources, hsources', foldl_put_of_perm hregistered hnames]
  refine ⟨report', primes', ?_, hsuccess', hregistered, ?_⟩
  · rw [← hsame]
    exact hrun'
  · rw [hwritten, hwritten']
    exact hregistered.map _

/-- A subclass and its superclass. -/
def familyClasses : List ClassModel :=
  [{ ClassModel.empty "Dog" .entity with superclass := some "Animal" }, .empty "Animal" .entity]

/-- The superclass may be declared before the subclass as well as after it. -/
theorem runInMemory_familyClasses :
    ∃ (report report' : Report) (primes primes' : PrimeSupply) (sources : Sources),
      runInMemory { Metamodel.empty "zoo" with classes := familyClasses } fixedOptions
          (fixedOptions.supply 0) = (.ok (report, primes), sources)
        ∧ report.written.map (·.className) = ["zoo.Animal", "zoo.Dog"]
        ∧ runInMemory { Metamodel.empty "zoo" with classes := familyClasses.reverse } fixedOptions
          (fixedOptions.supply 1) = (.ok (report', primes'), sources) := by
  let model := { Metamodel.empty "zoo" with classes := familyClasses }
  obtain ⟨report, primes, sources, hrun, hsummary⟩ :=
    exists_report (runInMemory model fixedOptions (fixedOptions.supply 0))
      (fun report => (report.isSuccess, report.written.map (·.className)))
      (a := (true, ["zoo.Animal", "zoo.Dog"])) (by decide +kernel)
  rw [Prod.mk.injEq] at hsummary
  obtain ⟨report', primes', hrun', -⟩ :=
    runInMemory_of_perm (by decide) familyClasses.reverse_perm
      settled_fixedOptions hrun hsummary.1 1
  exact ⟨report, report', primes, primes', sources, hrun, hsummary.2, hrun'⟩

end EntityForge
