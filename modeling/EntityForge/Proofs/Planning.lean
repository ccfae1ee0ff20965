import EntityForge.Generation.Run
import EntityForge.Proofs.Ancestry
import EntityForge.Proofs.StageOrder

/-!
# When a run fails

A run plans all its stages before it generates anything. In a metamodel whose class names are all different,
planning fails exactly when the superclasses of a class that is to be generated lead to an unknown name or come
round in a circle; ordering the classes of a stage never adds an error of its own.

Main statement: `run_fails_exactly_on_broken_hierarchy`.
-/

namespace EntityForge

variable {model : Metamodel} {stage : Stage}

/-! ## Hierarchies that cannot be followed to their end -/

namespace Metamodel

/-- The superclasses of a class lead to a name that no class bears. -/
def Dangles (model : Metamodel) (c : ClassModel) : Prop :=
  ∃ d name, Relation.ReflTransGen model.Extends c d ∧ d.superclass = some name
    ∧ model.class? name = none

/-- The superclasses of a class lead into a circle. -/
def Loops (model : Metamodel) (c : ClassModel) : Prop :=
  ∃ d, Relation.ReflTransGen model.Extends c d ∧ Relation.TransGen model.Extends d d

/-- The superclasses of a class cannot be followed to their end. -/
def Broken (model : Metamodel) (c : ClassModel) : Prop :=
  model.Dangles c ∨ model.Loops c

/-- All that can be reached from a circle lies on a circle, since each class has one superclass at most. -/
theorem transGen_self_of_reflTransGen {d e : ClassModel} (hd : Relation.TransGen model.Extends d d)
    (he : Relation.ReflTransGen model.Extends d e) : Relation.TransGen model.Extends e e := by
  induction he with
  | refl => exact hd
  | @tail e f _ hef ih =>
    -- The next class on the circle of `e` is the superclass of `e`, which is `f`.
    obtain ⟨g, heg, hge⟩ := Relation.TransGen.head'_iff.mp ih
    have hfg : f = g := extends_rightUnique model hef heg
    rw [hfg] at hef ⊢
    exact Relation.TransGen.tail' hge hef

/-- A climb that ends at a class without a superclass neither dangles nor loops. -/
theorem Climb.not_broken {c last : ClassModel} {path : List ClassModel}
    (h : model.Climb c path last) (htop : last.superclass = none) : ¬ model.Broken c := by
  have hlast := h.reaches c List.mem_cons_self
  have hend : ∀ d, Relation.ReflTransGen model.Extends c d →
      Relation.ReflTransGen model.Extends d last := by
    intro d hd
    rcases Relation.ReflTransGen.total_of_right_unique (extends_rightUnique model) hd hlast with
      h | h
    · exact h
    · rcases Relation.ReflTransGen.cases_head h with rfl | ⟨p, hp, -⟩
      · exact .refl
      · exact absurd hp (not_extends_of_top htop)
  rintro (⟨d, name, hd, hname, hnone⟩ | ⟨d, hd, hloop⟩)
  · rcases Relation.ReflTransGen.cases_head (hend d hd) with rfl | ⟨p, hp, -⟩
    · rw [htop] at hname
      exact absurd hname (by simp)
    · exact absurd hp (not_extends_of_unknown hname hnone)
  · have hself := transGen_self_of_reflTransGen hloop (hend d hd)
    obtain ⟨p, hp, -⟩ := Relation.TransGen.head'_iff.mp hself
    exact absurd hp (not_extends_of_top htop)

end Metamodel

/-- What the error of a stage is for a class whose superclasses cannot be followed to their end. -/
inductive HierarchyFault (model : Metamodel) (stage : Stage) (c : ClassModel) :
    GenerationError → Prop
  /-- The superclasses lead to a class that names an unknown one. -/
  | dangling {d : ClassModel} {name : String} (hd : Relation.ReflTransGen model.Extends c d)
      (hname : d.superclass = some name) (hnone : model.class? name = none) :
      HierarchyFault model stage c (.unresolved (.unknownClass name d.name))
  /-- The superclasses lead into a circle. -/
  | looping (hloop : model.Loops c) :
      HierarchyFault model stage c (.cyclicHierarchy stage [c.name])

/-- When all names are different, two classes of one name are the same class. -/
theorem eq_of_name_eq (hdistinct : (model.classes.map (·.name)).Nodup) {c d : ClassModel}
    (hc : c ∈ model.classes) (hd : d ∈ model.classes) (h : c.name = d.name) : c = d :=
  List.inj_on_of_nodup_map hdistinct hc hd h

/-- A class whose ancestors cannot be found has a fault. A name that comes up again is that of the same class, which so
lies on a circle. -/
theorem hierarchyFault_of_ancestors_eq_error (hdistinct : (model.classes.map (·.name)).Nodup)
    {c : ClassModel} (hc : c ∈ model.classes) {e : LookupError} (h : model.ancestors c = .error e) :
    HierarchyFault model stage c (.ofHierarchy stage e) := by
  have houtcome := model.ancestors_outcome c
  rw [h] at houtcome
  cases houtcome with
  | unknown climb _ hname hnone =>
    exact .dangling (climb.reaches c List.mem_cons_self) hname hnone
  | @again path last p climb _ hp hseen =>
    have hmem : ∃ d ∈ c :: path, d.name = p.name := by simpa [eq_comm] using hseen
    obtain ⟨d, hd, hdname⟩ := hmem
    have hdclass : d ∈ model.classes := by
      rcases List.mem_cons.mp hd with rfl | hd
      · exact hc
      · exact climb.mem_classes d hd
    obtain ⟨name, hname, hclass⟩ := hp
    have hdp : d = p := eq_of_name_eq hdistinct hdclass (Metamodel.mem_of_class? hclass) hdname
    refine .looping ⟨d, climb.reached d hd, ?_⟩
    exact Relation.TransGen.tail' (climb.reaches d hd) (hdp ▸ ⟨name, hname, hclass⟩)

theorem HierarchyFault.broken {c : ClassModel} {e : GenerationError}
    (h : HierarchyFault model stage c e) : model.Broken c := by
  cases h with
  | dangling hd hname hnone => exact Or.inl ⟨_, _, hd, hname, hnone⟩
  | looping hloop => exact Or.inr hloop

/-- A class whose ancestors can be found is not broken. -/
theorem not_broken_of_ancestors_eq_ok {c : ClassModel} {path : List ClassModel}
    (h : model.ancestors c = .ok path) : ¬ model.Broken c := by
  have houtcome := model.ancestors_outcome c
  rw [h] at houtcome
  cases houtcome with
  | top climb _ htop => exact climb.not_broken htop

/-! ## Checking a stage -/

/-- The check of one class. -/
theorem checkClass_eq_ok_iff {c : ClassModel} :
    (do let _ ← (model.ancestors c).mapError (GenerationError.ofHierarchy stage)) = .ok ()
      ↔ ∃ path, model.ancestors c = .ok path := by
  cases model.ancestors c with
  | error e => simp [Except.mapError, bind, Except.bind]
  | ok path => simp [Except.mapError, bind, Except.bind, pure, Except.pure]

theorem checkClass_eq_error_iff {c : ClassModel} {e : GenerationError} :
    (do let _ ← (model.ancestors c).mapError (GenerationError.ofHierarchy stage)) = .error e
      ↔ ∃ err, model.ancestors c = .error err ∧ e = .ofHierarchy stage err := by
  cases model.ancestors c with
  | error err => simp [Except.mapError, bind, Except.bind, eq_comm]
  | ok path => simp [Except.mapError, bind, Except.bind, pure, Except.pure]

/-- A stage passes its check when the ancestors of all its classes can be found. -/
theorem checkHierarchy_eq_ok_iff {classes : List ClassModel} :
    checkHierarchy model stage classes = .ok () ↔
      ∀ c ∈ classes, ∃ path, model.ancestors c = .ok path := by
  rw [checkHierarchy, forM_eq_ok_iff]
  exact forall₂_congr fun c _ => checkClass_eq_ok_iff

/-- A stage fails its check at the first class whose ancestors cannot be found. -/
theorem exists_of_checkHierarchy_eq_error {classes : List ClassModel} {e : GenerationError}
    (h : checkHierarchy model stage classes = .error e) :
    ∃ before c after err, classes = before ++ c :: after
      ∧ (∀ b ∈ before, ∃ path, model.ancestors b = .ok path)
      ∧ model.ancestors c = .error err ∧ e = .ofHierarchy stage err := by
  rw [checkHierarchy] at h
  obtain ⟨before, c, after, hsplit, hbefore, hc⟩ := failsFirst_of_forM_eq_error h
  obtain ⟨err, herr, he⟩ := checkClass_eq_error_iff.mp hc
  refine ⟨before, c, after, err, hsplit, fun b hb => ?_, herr, he⟩
  obtain ⟨⟨⟩, hr⟩ := hbefore b hb
  exact checkClass_eq_ok_iff.mp hr

/-- Along a climb that ends at a class without a superclass, all positions are placeable: from the end downwards, each
class waits for nothing or for the one above it. -/
theorem placeable_of_climb (hdistinct : (model.classes.map (·.name)).Nodup)
    {classes : List ClassModel} (hclasses : ∀ c ∈ classes, c ∈ model.classes)
    {c last : ClassModel} {path : List ClassModel} (h : model.Climb c path last)
    (htop : last.superclass = none) {i : ℕ} (hi : classes[i]? = some c) : Placeable classes i := by
  induction h generalizing i with
  | here => exact .free hi fun name hname => absurd (htop ▸ hname) (by simp)
  | @up c p last path hp rest ih =>
    obtain ⟨name, hname, hclass⟩ := hp
    -- The climb may leave the list: a class whose superclass is not in it waits for nothing.
    by_cases hborne : ∃ d ∈ classes, d.name = name
    · obtain ⟨d, hd, hdname⟩ := hborne
      have hdp : d = p := eq_of_name_eq hdistinct (hclasses d hd)
        (Metamodel.mem_of_class? hclass) (hdname.trans (Metamodel.name_of_class? hclass).symm)
      obtain ⟨j, hj⟩ := List.mem_iff_getElem?.mp (hdp ▸ hd)
      refine .after hi hj ?_ (ih htop hj)
      rw [hname, Metamodel.name_of_class? hclass]
    · refine .free hi fun other hother d hd hdname => hborne ⟨d, hd, ?_⟩
      rw [hname, Option.some.injEq] at hother
      rw [hdname, hother]

/-- Classes that pass the check can be ordered. -/
theorem orderClasses_of_checkHierarchy (hdistinct : (model.classes.map (·.name)).Nodup)
    {classes : List ClassModel} (hclasses : ∀ c ∈ classes, c ∈ model.classes)
    (hcheck : checkHierarchy model stage classes = .ok ()) :
    ∃ ordered, orderClasses model stage classes = .ok ordered := by
  rw [checkHierarchy_eq_ok_iff] at hcheck
  have hclimb : ∀ c ∈ classes, ∃ path last, model.Climb c path last ∧ last.superclass = none := by
    intro c hc
    obtain ⟨path, hpath⟩ := hcheck c hc
    have houtcome := model.ancestors_outcome c
    rw [hpath] at houtcome
    cases houtcome with
    | top climb _ htop => exact ⟨_, _, climb, htop⟩
  have hknown : ∀ c ∈ classes, ∀ name, c.superclass = some name → (model.class? name).isSome := by
    intro c hc name hname
    obtain ⟨path, last, climb, htop⟩ := hclimb c hc
    cases climb with
    | here =>
      rw [htop] at hname
      exact absurd hname (by simp)
    | up hp _ =>
      obtain ⟨other, hother, hclass⟩ := hp
      rw [hname, Option.some.injEq] at hother
      rw [hother, hclass]
      rfl
  have hplaceable : ∀ i < classes.length, Placeable classes i := by
    intro i hi
    obtain ⟨path, last, climb, htop⟩ := hclimb _ (List.getElem_mem hi)
    exact placeable_of_climb hdistinct hclasses climb htop (List.getElem?_eq_getElem hi)
  obtain ⟨ordered, -, hordered, -⟩ := orderClasses_of_placeable hknown hplaceable
  exact ⟨ordered, hordered⟩

/-! ## Planning all stages -/

/-- A class belongs to a stage when it is declared, to be generated, and of a kind of that stage. -/
theorem Stage.mem_classes_iff {c : ClassModel} :
    c ∈ stage.classes model
      ↔ c ∈ model.classes ∧ c.generateSource = true ∧ Stage.ofKind c.kind = stage := by
  simp only [Stage.classes, Metamodel.classesOf, List.mem_filter, List.mem_flatMap, beq_iff_eq]
  constructor
  · rintro ⟨⟨kind, hkind, hc, rfl⟩, hgenerate⟩
    exact ⟨hc, hgenerate, Stage.mem_kinds_iff.mp hkind⟩
  · rintro ⟨hc, hgenerate, hstage⟩
    exact ⟨⟨c.kind, Stage.mem_kinds_iff.mpr hstage, hc, rfl⟩, hgenerate⟩

theorem Stage.mem_model_of_mem_classes {c : ClassModel} (h : c ∈ stage.classes model) :
    c ∈ model.classes :=
  (Stage.mem_classes_iff.mp h).1

/-- The classes that are to be generated with their stages, stage by stage. -/
def Metamodel.staged (model : Metamodel) : List (Stage × ClassModel) :=
  (Spelled.values : List Stage).flatMap fun stage => (stage.classes model).map fun c => (stage, c)

/-- A stage has a plan when its classes pass their check. -/
theorem StagePlan.ofStage_eq_ok_iff (hdistinct : (model.classes.map (·.name)).Nodup) :
    (∃ plan, StagePlan.ofStage model stage = .ok plan)
      ↔ ∀ c ∈ stage.classes model, ∃ path, model.ancestors c = .ok path := by
  have hcheck : checkHierarchy model stage (stage.classes model) = .ok ()
      ↔ ∀ c ∈ stage.classes model, ∃ path, model.ancestors c = .ok path :=
    checkHierarchy_eq_ok_iff
  rw [← hcheck, StagePlan.ofStage]
  constructor
  · rintro ⟨plan, hplan⟩
    rw [bind_eq_ok_iff] at hplan
    obtain ⟨⟨⟩, hchecked, -⟩ := hplan
    exact hchecked
  · intro hcheck
    obtain ⟨ordered, hordered⟩ := orderClasses_of_checkHierarchy hdistinct
      (fun c hc => Stage.mem_model_of_mem_classes hc) hcheck
    exact ⟨{ stage, classes := ordered }, by rw [hcheck, hordered]; rfl⟩

/-- A stage has no plan because of its first class whose ancestors cannot be found. -/
theorem StagePlan.exists_of_ofStage_eq_error (hdistinct : (model.classes.map (·.name)).Nodup)
    {e : GenerationError} (h : StagePlan.ofStage model stage = .error e) :
    ∃ before c after, stage.classes model = before ++ c :: after
      ∧ (∀ b ∈ before, ¬ model.Broken b) ∧ HierarchyFault model stage c e := by
  have hclasses : ∀ c ∈ stage.classes model, c ∈ model.classes := fun c hc =>
    Stage.mem_model_of_mem_classes hc
  rw [StagePlan.ofStage, bind_eq_error_iff] at h
  rcases h with hcheck | ⟨⟨⟩, hcheck, h⟩
  · obtain ⟨before, c, after, err, hsplit, hbefore, hc, rfl⟩ :=
      exists_of_checkHierarchy_eq_error hcheck
    refine ⟨before, c, after, hsplit, fun b hb => ?_, ?_⟩
    · obtain ⟨path, hpath⟩ := hbefore b hb
      exact not_broken_of_ancestors_eq_ok hpath
    · exact hierarchyFault_of_ancestors_eq_error hdistinct (hclasses c (by simp [hsplit])) hc
  -- Once the check has passed, ordering cannot fail.
  · obtain ⟨ordered, hordered⟩ := orderClasses_of_checkHierarchy hdistinct hclasses hcheck
    rw [hordered] at h
    exact absurd h (by simp [bind, Except.bind, pure, Except.pure])

/-- The model has a plan exactly when no class that is to be generated is broken. -/
theorem plan_eq_ok_iff (hdistinct : (model.classes.map (·.name)).Nodup) :
    (∃ plans, model.plan = .ok plans)
      ↔ ∀ c ∈ model.classes, c.generateSource = true → ¬ model.Broken c := by
  constructor
  · rintro ⟨plans, hplans⟩ c hc hgenerate
    obtain ⟨plan, -, hplan⟩ := exists_mem_right_of_forall₂
      (forall₂_of_mapM_eq_ok hplans) (Spelled.mem_values (Stage.ofKind c.kind))
    obtain ⟨path, hpath⟩ := (StagePlan.ofStage_eq_ok_iff hdistinct).mp ⟨plan, hplan⟩ c
      (Stage.mem_classes_iff.mpr ⟨hc, hgenerate, rfl⟩)
    exact not_broken_of_ancestors_eq_ok hpath
  · intro hsound
    cases hplan : model.plan with
    | ok plans => exact ⟨plans, rfl⟩
    | error e =>
      obtain ⟨_, stage, _, _, -, hstage⟩ := failsFirst_of_mapM_eq_error hplan
      obtain ⟨_, c, _, hsplit, -, hfault⟩ := StagePlan.exists_of_ofStage_eq_error hdistinct hstage
      have hmem : c ∈ stage.classes model := by simp [hsplit]
      obtain ⟨hc, hgenerate, -⟩ := Stage.mem_classes_iff.mp hmem
      exact absurd hfault.broken (hsound c hc hgenerate)

/-- The model has no plan because of the first class, stage by stage, that is broken. -/
theorem exists_of_plan_eq_error (hdistinct : (model.classes.map (·.name)).Nodup)
    {e : GenerationError} (h : model.plan = .error e) :
    ∃ before stage c after, model.staged = before ++ (stage, c) :: after
      ∧ (∀ earlier ∈ before, ¬ model.Broken earlier.2) ∧ HierarchyFault model stage c e := by
  obtain ⟨stages, stage, others, hstages, hbefore, hstage⟩ := failsFirst_of_mapM_eq_error h
  obtain ⟨before, c, after, hsplit, hsound, hfault⟩ :=
    StagePlan.exists_of_ofStage_eq_error hdistinct hstage
  let pairs (s : Stage) : List (Stage × ClassModel) := (s.classes model).map fun d => (s, d)
  refine ⟨stages.flatMap pairs ++ before.map fun d => (stage, d), stage, c,
    (after.map fun d => (stage, d)) ++ others.flatMap pairs, ?_, ?_, hfault⟩
  · rw [Metamodel.staged, hstages, List.flatMap_append, List.flatMap_cons, hsplit]
    simp [pairs]
  · intro earlier hearlier
    rcases List.mem_append.mp hearlier with hmem | hmem
    · obtain ⟨s, hs, hpair⟩ := List.mem_flatMap.mp hmem
      obtain ⟨d, hd, rfl⟩ := List.mem_map.mp hpair
      obtain ⟨path, hpath⟩ := (StagePlan.ofStage_eq_ok_iff hdistinct).mp (hbefore s hs) d hd
      exact not_broken_of_ancestors_eq_ok hpath
    · obtain ⟨d, hd, rfl⟩ := List.mem_map.mp hmem
      exact hsound d hd

/-! ## Running -/

/-- **When a run fails.** In a metamodel whose class names are all different, whatever the options and the writer:
when no class that is to be generated is broken, all stages are run and there is a report. Otherwise the run is the
error of the first broken class, stage by stage, and nothing else: the writer is not called. And classes that pass
the check of a stage can always be ordered. -/
theorem run_fails_exactly_on_broken_hierarchy {m : Type → Type} [Monad m] {σ : Type}
    [PrimeSource σ] (generator : Generator m) (primes : σ)
    (hdistinct : (generator.model.classes.map (·.name)).Nodup) :
    ((∀ c ∈ generator.model.classes, c.generateSource = true → ¬ generator.model.Broken c) →
      ∃ plans, generator.model.plan = .ok plans
        ∧ generator.run primes = generator.runStages .empty primes plans >>= fun r => pure (.ok r))
    ∧ ((∃ c ∈ generator.model.classes, c.generateSource = true ∧ generator.model.Broken c) →
      ∃ before stage c after error, generator.model.staged = before ++ (stage, c) :: after
        ∧ (∀ earlier ∈ before, ¬ generator.model.Broken earlier.2)
        ∧ HierarchyFault generator.model stage c error
        ∧ generator.run primes = pure (.error error))
    ∧ ∀ stage classes, (∀ c ∈ classes, c ∈ generator.model.classes) →
      checkHierarchy generator.model stage classes = .ok () →
        ∃ ordered, orderClasses generator.model stage classes = .ok ordered := by
  refine ⟨fun hsound => ?_, ?_, fun stage classes hclasses hcheck =>
    orderClasses_of_checkHierarchy hdistinct hclasses hcheck⟩
  · obtain ⟨plans, hplans⟩ := (plan_eq_ok_iff hdistinct).mpr hsound
    refine ⟨plans, hplans, ?_⟩
    rw [Generator.run, hplans]
  · rintro ⟨c, hc, hgenerate, hbroken⟩
    cases hplan : generator.model.plan with
    | ok plans =>
      exact absurd hbroken ((plan_eq_ok_iff hdistinct).mp ⟨plans, hplan⟩ c hc hgenerate)
    | error e =>
      obtain ⟨before, stage, d, after, hsplit, hbefore, hfault⟩ :=
        exists_of_plan_eq_error hdistinct hplan
      refine ⟨before, stage, d, after, e, hsplit, hbefore, hfault, ?_⟩
      rw [Generator.run, hplan]

/-- A metamodel with two classes that extend each other. -/
def circularPair : Metamodel :=
  { Metamodel.empty "shop" with
    classes :=
      [.empty "Person" .entity, { ClassModel.empty "A" .entity with superclass := some "B" },
        { ClassModel.empty "B" .entity with superclass := some "A" }] }

/-- Two classes that extend each other stop the run before anything is written. -/
theorem run_fails_on_circularPair :
    (circularPair.classes.map (·.name)).Nodup
    ∧ ∃ before stage c after error, circularPair.staged = before ++ (stage, c) :: after
        ∧ (∀ earlier ∈ before, ¬ circularPair.Broken earlier.2)
        ∧ HierarchyFault circularPair stage c error
        ∧ runInMemory circularPair .standard (PrimeSupply.fixed .standard) = (.error error, .empty) := by
  have hdistinct : (circularPair.classes.map (·.name)).Nodup := by decide
  have hab : circularPair.Extends { ClassModel.empty "A" .entity with superclass := some "B" }
      { ClassModel.empty "B" .entity with superclass := some "A" } := ⟨"B", rfl, rfl⟩
  have hba : circularPair.Extends { ClassModel.empty "B" .entity with superclass := some "A" }
      { ClassModel.empty "A" .entity with superclass := some "B" } := ⟨"A", rfl, rfl⟩
  obtain ⟨before, stage, c, after, error, hsplit, hbefore, hfault, hrun⟩ :=
    (run_fails_exactly_on_broken_hierarchy
      ({ model := circularPair, options := .standard, write := Sources.writer } :
        Generator (StateM Sources)) (PrimeSupply.fixed .standard) hdistinct).2.1
      ⟨_, List.mem_cons_of_mem _ List.mem_cons_self, rfl,
        Or.inr ⟨_, .refl, Relation.TransGen.tail (.single hab) hba⟩⟩
  refine ⟨hdistinct, before, stage, c, after, error, hsplit, hbefore, hfault, ?_⟩
  rw [runInMemory, hrun]
  rfl

end EntityForge
