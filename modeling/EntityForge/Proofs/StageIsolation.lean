import EntityForge.Proofs.Steadiness

/-!
# Stages do not disturb each other

The generation of classes of one stage is switched on or off. Whatever becomes of that stage, the classes of the other
stages are looked up, ordered, generated and written as before: a class is found under its name whether it is generated
or not, and in a steady run nothing is handed on from stage to stage.

Main statement: `run_isolates_stages`.
-/

namespace EntityForge

/-! ## Changing what is generated -/

/-- `d` is `c`, or the two belong to the stage and differ in whether they are generated. -/
def ClassModel.ChangedIn (stage : Stage) (c d : ClassModel) : Prop :=
  d = c ∨ Stage.ofKind c.kind = stage ∧ ∃ generate, d = { c with generateSource := generate }

theorem ClassModel.ChangedIn.sameContent {stage : Stage} {c d : ClassModel}
    (h : ClassModel.ChangedIn stage c d) : c.SameContent d := by
  rcases h with rfl | ⟨-, hsame⟩
  · exact .refl d
  · exact hsame

section Change

variable {stage : Stage} {model : Metamodel} {classes : List ClassModel}

/-- Metamodels that differ only in what is generated agree. -/
theorem agrees_of_changedIn (h : List.Forall₂ (ClassModel.ChangedIn stage) model.classes classes) :
    model.Agrees { model with classes } where
  package := rfl
  bindingSupport := rfl
  interfaces := rfl
  snippets := rfl
  class? name := by
    unfold Metamodel.class?
    refine find?_of_forall₂ ?_ (h.imp fun _ _ hcd => hcd.sameContent)
    rintro c _ ⟨generate, rfl⟩
    rfl

/-- The classes of a kind of another stage stay as they are. -/
theorem classesOf_of_changedIn
    (h : List.Forall₂ (ClassModel.ChangedIn stage) model.classes classes) {kind : ClassKind}
    (hkind : Stage.ofKind kind ≠ stage) :
    ({ model with classes } : Metamodel).classesOf kind = model.classesOf kind := by
  unfold Metamodel.classesOf
  show classes.filter (fun c => c.kind == kind) = model.classes.filter (fun c => c.kind == kind)
  generalize model.classes = before at h
  induction h with
  | nil => rfl
  | @cons c d rest others hcd _ ih =>
    rcases hcd with rfl | ⟨hstage, generate, rfl⟩
    · rw [List.filter_cons, List.filter_cons, ih]
    · have hne : (c.kind == kind) = false := by
        rw [beq_eq_false_iff_ne]
        rintro rfl
        exact hkind hstage
      rw [List.filter_cons, List.filter_cons, ih]
      simp [hne]

/-- Another stage has the same classes. -/
theorem Stage.classes_of_changedIn
    (h : List.Forall₂ (ClassModel.ChangedIn stage) model.classes classes) {other : Stage}
    (hother : other ≠ stage) :
    other.classes { model with classes } = other.classes model := by
  have hkinds : ∀ kind ∈ other.kinds,
      ({ model with classes } : Metamodel).classesOf kind = model.classesOf kind := by
    intro kind hkind
    apply classesOf_of_changedIn h
    rw [Stage.mem_kinds_iff.mp hkind]
    exact hother
  unfold Stage.classes
  rw [List.flatMap_congr hkinds]

end Change

/-! ## Two runs -/

section Runs

variable {S : Type} {stage : Stage} {model : Metamodel} {classes : List ClassModel}
  {options : GenerationOptions} {write : Writer (StateM S)}
  {answer : JavaClass → Except GenerationError WrittenUnit} {pair : PrimePair}
  {x y x' y' : PrimeSupply × S} {report report' : Report} {outcomes outcomes' : List StageOutcome}

/-- Another stage comes to the same in both runs. -/
theorem outcome_eq_of_changedIn
    (hchange : List.Forall₂ (ClassModel.ChangedIn stage) model.classes classes)
    (hwrite : write.Answers answer) (hx : Repeats pair x.1) (hx' : Repeats pair x'.1)
    (h : RunsTo { model, options, write } x y report outcomes)
    (h' : RunsTo { model := { model with classes }, options, write } x' y' report' outcomes')
    {o o' : StageOutcome} (ho : o ∈ outcomes) (ho' : o' ∈ outcomes') (hstage : o'.stage = o.stage)
    (hne : o.stage ≠ stage) : o' = o := by
  have hagrees := agrees_of_changedIn hchange
  have hplanned : o'.planned = o.planned := by
    have horder := h.ordered o ho
    have horder' := h'.ordered o' ho'
    rw [hstage, Stage.classes_of_changedIn hchange hne,
      orderClasses_eq_of_agrees hagrees, horder] at horder'
    exact (Except.ok.inj horder').symm
  have hassembled : Generator.assembled { model := { model with classes }, options, write } pair
      = Generator.assembled { model, options, write } pair :=
    assembleWith_eq_of_agrees hagrees options pair
  rw [h.runs.steady hx hwrite o ho, h'.runs.steady hx' hwrite o' ho', hstage, hplanned, hassembled]

/-- The outcomes of the other stages are the same in both runs. -/
theorem filter_outcomes_eq_of_changedIn
    (hchange : List.Forall₂ (ClassModel.ChangedIn stage) model.classes classes)
    (hwrite : write.Answers answer) (hx : Repeats pair x.1) (hx' : Repeats pair x'.1)
    (h : RunsTo { model, options, write } x y report outcomes)
    (h' : RunsTo { model := { model with classes }, options, write } x' y' report' outcomes') :
    outcomes'.filter (·.stage ≠ stage) = outcomes.filter (·.stage ≠ stage) := by
  have hstages : List.Forall₂ (fun o o' : StageOutcome => o'.stage = o.stage) outcomes outcomes' := by
    have heq : outcomes.map (·.stage) = outcomes'.map (·.stage) := by rw [h.stages, h'.stages]
    rw [← List.forall₂_eq_eq_eq, List.forall₂_map_left_iff, List.forall₂_map_right_iff] at heq
    exact heq.imp fun _ _ ho => ho.symm
  have hsame : ∀ o ∈ outcomes, ∀ o' ∈ outcomes', o'.stage = o.stage → o.stage ≠ stage → o' = o :=
    fun o ho o' ho' => outcome_eq_of_changedIn hchange hwrite hx hx' h h' ho ho'
  clear h h'
  induction hstages with
  | nil => rfl
  | @cons o o' rest rest' hstage _ ih =>
    have hrest := ih
      fun p hp p' hp' => hsame p (List.mem_cons_of_mem _ hp) p' (List.mem_cons_of_mem _ hp')
    rw [List.filter_cons, List.filter_cons, hrest]
    by_cases hne : o.stage = stage
    · simp [hstage, hne]
    · rw [hsame o List.mem_cons_self o' List.mem_cons_self hstage hne]

end Runs

/-- The failures outside a stage are those of the outcomes of the other stages. -/
theorem filter_failures_of_ne (stage : Stage) (outcomes : List StageOutcome) :
    (outcomes.flatMap (·.failures)).filter (·.stage ≠ stage)
      = (outcomes.filter (·.stage ≠ stage)).flatMap (·.failures) := by
  induction outcomes with
  | nil => rfl
  | cons o rest ih =>
    rw [List.flatMap_cons, List.filter_append, ih, List.filter_cons]
    cases hhalt : o.halt with
    | none => by_cases hne : o.stage = stage <;> simp [StageOutcome.failures, hhalt, hne]
    | some h =>
      by_cases hne : o.stage = stage <;>
        simp [StageOutcome.failures, hhalt, hne, Failure.ofClass]

/-- **Stage isolation.** The generation of any classes of one stage is changed. When both runs return a report, all
other stages came to the same in both: the same classes were written, with the same units, the same one failed and the
same ones were skipped after it. So the reports agree on what is registered under the kinds of the other stages, and on
their failures. The writer may be any whose answers do not depend on what it wrote before, such as the one that keeps
sources in memory. -/
theorem run_isolates_stages {S : Type} {stage : Stage} {model : Metamodel}
    {classes : List ClassModel} {options : GenerationOptions} {write : Writer (StateM S)}
    {answer : JavaClass → Except GenerationError WrittenUnit} {entropy entropy' : UInt64}
    {s t s' t' : S} {primes primes' : PrimeSupply} {report report' : Report}
    (hchange : List.Forall₂ (ClassModel.ChangedIn stage) model.classes classes)
    (hsettled : options.Settled) (hwrite : write.Answers answer)
    (h : (({ model, options, write } : Generator (StateM S)).run (options.supply entropy)).run s
      = (.ok (report, primes), t))
    (h' : (({ model := { model with classes }, options, write } : Generator (StateM S)).run
      (options.supply entropy')).run s' = (.ok (report', primes'), t')) :
    ∃ outcomes outcomes',
      RunsTo { model, options, write } (options.supply entropy, s) (primes, t) report outcomes
      ∧ RunsTo { model := { model with classes }, options, write } (options.supply entropy', s')
        (primes', t') report' outcomes'
      ∧ outcomes'.filter (·.stage ≠ stage) = outcomes.filter (·.stage ≠ stage)
      ∧ (∀ kind, Stage.ofKind kind ≠ stage →
        report'.catalogue.ofKind kind = report.catalogue.ofKind kind)
      ∧ report'.failures.filter (·.stage ≠ stage) = report.failures.filter (·.stage ≠ stage) := by
  obtain ⟨pair, hpair⟩ := hsettled.repeats
  obtain ⟨outcomes, hruns⟩ := exists_runsTo h
  obtain ⟨outcomes', hruns'⟩ := exists_runsTo h'
  have hfilter :=
    filter_outcomes_eq_of_changedIn hchange hwrite (hpair entropy) (hpair entropy') hruns hruns'
  refine ⟨outcomes, outcomes', hruns, hruns', hfilter, ?_, ?_⟩
  · intro kind hkind
    obtain ⟨o, ho, hstage⟩ := hruns.exists_outcome (Stage.ofKind kind)
    obtain ⟨o', ho', hstage'⟩ := hruns'.exists_outcome (Stage.ofKind kind)
    have heq := outcome_eq_of_changedIn hchange hwrite (hpair entropy) (hpair entropy') hruns hruns'
      ho ho' (hstage'.trans hstage.symm) (hstage ▸ hkind)
    rw [hruns.ofKind_eq ho hstage.symm, hruns'.ofKind_eq ho' hstage'.symm, heq]
  · have hfailures : ∀ outcomes : List StageOutcome,
        (Report.empty.afterAll outcomes).failures = outcomes.flatMap (·.failures) := fun _ => rfl
    rw [hruns.report_eq, hruns'.report_eq, hfailures, hfailures, filter_failures_of_ne,
      filter_failures_of_ne, hfilter]

/-- Two entities, the first of which has a name that no class can have, and a bean. -/
def misnamedShop (generate : Bool) : Metamodel :=
  { Metamodel.empty "shop" with
    classes :=
      [{ ClassModel.empty "1st" .entity with generateSource := generate }, .empty "Tag" .entity,
        .empty "Note" .bean] }

/-- The misnamed entity keeps the other one from being written, and the bean is written with or without it. -/
theorem runInMemory_isolates_misnamedShop :
    ∃ report report' : Report,
      report.written.map (·.className) = ["shop.Note"]
        ∧ report'.written.map (·.className) = ["shop.Tag", "shop.Note"]
        ∧ report'.catalogue.ofKind .bean = report.catalogue.ofKind .bean
        ∧ report'.failures.filter (·.stage ≠ .entities)
          = report.failures.filter (·.stage ≠ .entities) := by
  obtain ⟨report, primes, t, hrun, hwritten⟩ :=
    exists_report (runInMemory (misnamedShop true) fixedOptions (fixedOptions.supply 0))
      (fun report => report.written.map (·.className)) (a := ["shop.Note"]) (by decide +kernel)
  obtain ⟨report', primes', t', hrun', hwritten'⟩ :=
    exists_report (runInMemory (misnamedShop false) fixedOptions (fixedOptions.supply 1))
      (fun report => report.written.map (·.className)) (a := ["shop.Tag", "shop.Note"])
      (by decide +kernel)
  have hchange : List.Forall₂ (ClassModel.ChangedIn .entities) (misnamedShop true).classes
      (misnamedShop false).classes :=
    .cons (Or.inr ⟨rfl, false, rfl⟩) (.cons (Or.inl rfl) (.cons (Or.inl rfl) .nil))
  obtain ⟨_, _, -, -, -, hregistered, hfailures⟩ :=
    run_isolates_stages hchange settled_fixedOptions Sources.writer_answers hrun hrun'
  exact ⟨report, report', hwritten, hwritten', hregistered .bean (by decide), hfailures⟩

end EntityForge
