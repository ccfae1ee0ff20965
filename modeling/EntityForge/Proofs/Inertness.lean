import EntityForge.Proofs.StageOrder
import EntityForge.Proofs.Steadiness

/-!
# What is disabled

References to types, annotations, code and constructors can be disabled, and constraints can be left unselected.
Without them the metamodel is `Metamodel.pruned`, and generates the same classes with the same primes. One thing counts
although it is disabled: a composite key that declares constructors is not given those of a key, even when none of its
own is enabled. So the constructors of such a key stay.

Main statement: `run_pruned`.
-/

namespace EntityForge

open ClassModel (LooksAlike)

/-! ## References and bindings -/

/-- The reference, if it is enabled. -/
def TypeRef.pruned (ref : Option TypeRef) : Option TypeRef :=
  ref.filter (·.enabled)

@[simp] theorem TypeRef.active?_pruned (ref : Option TypeRef) : active? (pruned ref) = active? ref := by
  cases ref with
  | none => rfl
  | some ref => cases henabled : ref.enabled <;> simp [active?, pruned, Option.filter, henabled]

@[simp] theorem TypeRef.use?_pruned (name : String) (ref : Option TypeRef) :
    use? name (pruned ref) = use? name ref := by
  rw [use?, active?_pruned, use?]

/-- The formats, and the converters that are enabled. -/
def BindingTypes.pruned (t : BindingTypes) : BindingTypes :=
  { t with
    typeAdapter := TypeRef.pruned t.typeAdapter
    typeDeserializer := TypeRef.pruned t.typeDeserializer
    typeSerializer := TypeRef.pruned t.typeSerializer }

@[simp] theorem BindingTypes.uses_pruned (t : BindingTypes) : t.pruned.uses = t.uses := by
  simp [uses, pruned]

/-- The binding of a class without the references that are disabled. -/
def ClassBinding.pruned (b : ClassBinding) : ClassBinding :=
  { b with types := b.types.pruned, visibility := TypeRef.pruned b.visibility }

@[simp] theorem ClassBinding.uses_pruned (visible : List String) (b : ClassBinding) :
    b.pruned.uses visible = b.uses visible := by
  rw [uses, uses]
  simp only [pruned, BindingTypes.uses_pruned, TypeRef.use?_pruned]
  rfl

/-- The binding of an attribute without the references that are disabled. -/
def AttributeBinding.pruned (b : AttributeBinding) : AttributeBinding :=
  { b with types := b.types.pruned }

@[simp] theorem AttributeBinding.uses_pruned (b : AttributeBinding) : b.pruned.uses = b.uses := by
  simp [uses, pruned, propertyUse?]

/-! ## Annotations, code and constraints -/

section Placed

variable {L : Type}

/-- Annotations that are disabled are not placed. -/
theorem Placed.ofAnnotations_enabled (annotations : List (AnnotationAt L)) :
    ofAnnotations (annotations.filter (·.enabled)) = ofAnnotations annotations := by
  rw [ofAnnotations, List.filter_filter, ofAnnotations]
  congr 1
  refine List.filter_congr fun a _ => ?_
  cases a.enabled <;> simp

/-- Code that is disabled is not placed. -/
theorem Placed.ofSnippets_enabled [CodePlace L] (snippets : List (SnippetAt L)) :
    ofSnippets (snippets.filter (·.enabled)) = ofSnippets snippets := by
  rw [ofSnippets, List.filter_filter, ofSnippets]
  congr 1
  refine List.filter_congr fun s _ => ?_
  cases s.enabled <;> simp

end Placed

/-- Constraints that are not selected are neither written nor checked. -/
theorem Constraint.uses_selected (defaults : Bool) (constraints : List Constraint) :
    uses defaults (constraints.filter (·.selected)) = uses defaults constraints := by
  induction constraints with
  | nil => rfl
  | cons c rest ih =>
    cases hselected : c.selected with
    | true =>
      rw [List.filter_cons_of_pos hselected, uses, uses, ih]
    | false =>
      have hnone : c.use? defaults = .ok none := by simp [use?, hselected]
      rw [List.filter_cons_of_neg (by simp [hselected]), ih, uses, hnone]
      cases uses defaults rest <;> rfl

/-! ## Attributes and classes -/

/-- The attribute without what is disabled or unselected. -/
def Attribute.pruned (a : Attribute) : Attribute :=
  { a with
    constraints := a.constraints.filter (·.selected)
    keyConstraints := a.keyConstraints.filter (·.selected)
    valueConstraints := a.valueConstraints.filter (·.selected)
    binding := a.binding.pruned
    annotations := a.annotations.filter (·.enabled)
    runtimeAnnotations := a.runtimeAnnotations.filter (·.enabled)
    snippets := a.snippets.filter (·.enabled)
    runtimeSnippets := a.runtimeSnippets.filter (·.enabled) }

namespace ClassModel

/-- The enabled constructors; or all constructors of a composite key, if none of them is enabled. -/
def keptConstructors (c : ClassModel) : List ConstructorModel :=
  if c.kind.isIdentifier && (c.constructors.filter (·.enabled)).isEmpty then c.constructors
  else c.constructors.filter (·.enabled)

/-- The class without what is disabled or unselected, but with the constructors of a composite key when it has no
enabled one. -/
def pruned (c : ClassModel) : ClassModel :=
  { c with
    superclassRef := TypeRef.pruned c.superclassRef
    interfaces := c.interfaces.filter (·.enabled)
    attributes := c.attributes.map Attribute.pruned
    constructors := c.keptConstructors
    annotations := c.annotations.filter (·.enabled)
    runtimeAnnotations := c.runtimeAnnotations.filter (·.enabled)
    snippets := c.snippets.filter (·.enabled)
    runtimeSnippets := c.runtimeSnippets.filter (·.enabled)
    binding := c.binding.pruned }

/-- The same constructors are enabled. -/
theorem filter_keptConstructors (c : ClassModel) :
    c.keptConstructors.filter (·.enabled) = c.constructors.filter (·.enabled) := by
  unfold keptConstructors
  split
  · rfl
  · simp

/-- A composite key keeps a constructor if it declares any. -/
theorem isEmpty_keptConstructors (c : ClassModel) :
    (c.kind.isIdentifier && c.keptConstructors.isEmpty) = (c.kind.isIdentifier && c.constructors.isEmpty) := by
  unfold keptConstructors
  cases c.kind.isIdentifier with
  | false => rfl
  | true =>
    cases hnone : (c.constructors.filter (·.enabled)).isEmpty with
    | true => rfl
    | false =>
      have hsome : c.constructors.isEmpty = false := by
        rw [Bool.eq_false_iff, ne_eq, List.isEmpty_iff]
        intro hempty
        simp [hempty] at hnone
      simp [hnone, hsome]

end ClassModel

/-- The metamodel without what is disabled or unselected. -/
def Metamodel.pruned (model : Metamodel) : Metamodel :=
  { model with
    interfaces := model.interfaces.filter (·.enabled)
    snippets := model.snippets.filter (·.enabled)
    classes := model.classes.map ClassModel.pruned }

/-- A pruned attribute has the same field in the pruned class. -/
theorem JavaField.ofAttribute_pruned (options : GenerationOptions) (c : ClassModel) (a : Attribute) :
    ofAttribute options c.pruned a.pruned = ofAttribute options c a := by
  have hannotations : Placed.ofAnnotations (a.pruned.annotations ++ a.pruned.runtimeAnnotations)
      = .ofAnnotations (a.annotations ++ a.runtimeAnnotations) := by
    show Placed.ofAnnotations (a.annotations.filter _ ++ a.runtimeAnnotations.filter _) = _
    rw [← List.filter_append, Placed.ofAnnotations_enabled]
  have hsnippets : Placed.ofSnippets (a.pruned.snippets ++ a.pruned.runtimeSnippets)
      = .ofSnippets (a.snippets ++ a.runtimeSnippets) := by
    show Placed.ofSnippets (a.snippets.filter _ ++ a.runtimeSnippets.filter _) = _
    rw [← List.filter_append, Placed.ofSnippets_enabled]
  have hbinding : a.pruned.binding.uses = a.binding.uses := AttributeBinding.uses_pruned a.binding
  unfold ofAttribute
  rw [hannotations, hsnippets, hbinding]
  simp only [Attribute.pruned, Constraint.uses_selected]
  rfl

/-! ## Lookup and assembly -/

section Pruned

variable (model : Metamodel) (options : GenerationOptions)

/-- Names stand for the pruned classes, with the pruned attributes. -/
theorem Metamodel.relates_pruned :
    model.Relates (fun c d => d = c.pruned) (fun a b => b = a.pruned) model.pruned where
  name_eq := by rintro c _ rfl; rfl
  superclass_eq := by rintro c _ rfl; rfl
  attributes := by
    rintro c _ rfl
    exact List.forall₂_map_right_iff.mpr (List.forall₂_same.mpr fun _ _ => rfl)
  attributeName_eq := by rintro a _ rfl; rfl
  class? name := by
    refine find?_of_forall₂ (by rintro c _ rfl; rfl) ?_
    exact List.forall₂_map_right_iff.mpr (List.forall₂_same.mpr fun _ _ => rfl)

/-- The pruned class in the pruned metamodel is drafted from the same things. -/
theorem ClassModel.matches_pruned (c : ClassModel) :
    Workplace.Matches { model, options, subject := c }
      { model := model.pruned, options, subject := c.pruned } where
  field := by
    refine model.relates_pruned.ofName_eq rfl ?_
    rintro a _ rfl
    exact ⟨rfl, JavaField.ofAttribute_pruned options c a⟩
  name := rfl
  kind := rfl
  package := rfl
  isAbstract := rfl
  attributeNames := model.relates_pruned.attributeNames rfl
  constructors := c.filter_keptConstructors
  isIdentity := c.isEmpty_keptConstructors
  equalsMethod := rfl
  hashCodeMethod := rfl
  toStringMethod := rfl
  ancestors := by
    have hlook := model.relates_pruned.toLooksAlike
    refine (model.relates_pruned.ancestors rfl).imp fun ancestors others hancestors => ?_
    exact ⟨hlook.attributeFault? hancestors (hlook.attributeNames rfl) [], hlook.visibleNames (.cons rfl hancestors)⟩
  superclass := by
    unfold Workplace.superclass
    refine (model.relates_pruned.superclassOf rfl).bind_eq ?_
    rintro _ _ (rfl | _)
    · rfl
    · simp only [ClassModel.pruned, TypeRef.active?_pruned]
  interfaces := by
    have hshared :
        ((if c.kind.isIdentifier then [] else model.pruned.interfaces) ++ c.pruned.interfaces).filter (·.enabled)
          = ((if c.kind.isIdentifier then [] else model.interfaces) ++ c.interfaces).filter (·.enabled) := by
      cases c.kind.isIdentifier <;> simp [Metamodel.pruned, ClassModel.pruned, List.filter_append]
    exact congrArg (fun refs : List TypeRef => (refs.map (·.name)).eraseDups) hshared
  persistence := rfl
  binding visible := ClassBinding.uses_pruned visible c.binding
  annotations := by
    show Placed.ofAnnotations (c.annotations.filter _ ++ c.runtimeAnnotations.filter _) = _
    rw [← List.filter_append, Placed.ofAnnotations_enabled]
  snippets := by
    show Placed.ofSnippets (model.snippets.filter _ ++ c.snippets.filter _ ++ c.runtimeSnippets.filter _) = _
    rw [← List.filter_append, ← List.filter_append, Placed.ofSnippets_enabled]
  bindingSupport := rfl

/-- A class is assembled to the same result in the pruned metamodel. -/
theorem assemble_pruned {σ : Type} [PrimeSource σ] (c : ClassModel) (primes : σ) :
    assemble model.pruned options c.pruned primes = assemble model options c primes :=
  (c.matches_pruned model options).assemble_eq primes

end Pruned

/-! ## Ordering and planning -/

/-- The candidate with its class pruned. -/
def Candidate.pruned (candidate : Candidate) : Candidate :=
  { candidate with subject := candidate.subject.pruned }

/-- The plan with its classes pruned. -/
def StagePlan.pruned (plan : StagePlan) : StagePlan :=
  { plan with classes := plan.classes.map ClassModel.pruned }

/-- The superclass of a pruned class is pruned. -/
theorem superclassOf_pruned (model : Metamodel) (c : ClassModel) :
    model.pruned.superclassOf c.pruned = (model.superclassOf c).map (Option.map ClassModel.pruned) := by
  have hmap : Alike (fun p q => q = p.map ClassModel.pruned) (model.superclassOf c)
      (model.pruned.superclassOf c.pruned) := by
    refine (model.relates_pruned.superclassOf rfl).imp ?_
    rintro _ _ (rfl | _) <;> rfl
  exact hmap.eq_map

/-- A pruned class waits for the same name. -/
theorem Candidate.ofClass_pruned (model : Metamodel) (classes : List ClassModel) (c : ClassModel) :
    ofClass model.pruned (classes.map ClassModel.pruned) c.pruned = (ofClass model classes c).map pruned := by
  have hlisted : ∀ p : ClassModel, (classes.map ClassModel.pruned).any (·.name == p.pruned.name)
      = classes.any (·.name == p.name) := by
    intro p
    rw [List.any_map]
    rfl
  unfold ofClass
  rw [superclassOf_pruned]
  cases model.superclassOf c with
  | error e => rfl
  | ok parent =>
    cases parent with
    | none => rfl
    | some p =>
      have hparent :
          ((some p.pruned).filter fun p => (classes.map ClassModel.pruned).any (·.name == p.name)).map (·.name)
            = ((some p).filter fun p => classes.any (·.name == p.name)).map (·.name) := by
        rw [Option.filter_some, Option.filter_some, hlisted]
        split <;> rfl
      exact congrArg (fun parent => (Except.ok ⟨c.pruned, parent⟩ : Except LookupError Candidate)) hparent

/-- Pruned candidates are ready when they were, and are placed in the same order. -/
theorem Candidate.arrange_pruned (placed : List ClassModel) (waiting : List Candidate) :
    arrange (placed.map ClassModel.pruned) (waiting.map pruned)
      = (arrange placed waiting).map (List.map ClassModel.pruned) (List.map pruned) := by
  have hready : ∀ (placed : List ClassModel) (candidate : Candidate),
      isReady (placed.map ClassModel.pruned) candidate.pruned = isReady placed candidate := by
    rintro placed ⟨subject, parent⟩
    cases parent with
    | none => rfl
    | some name => exact List.any_map
  -- Each step takes one of the waiting candidates.
  induction hn : waiting.length using Nat.strongRecOn generalizing placed waiting with
  | ind n ih =>
    have htake := takeFirst?_map pruned (isReady (placed.map ClassModel.pruned)) waiting
    simp only [hready] at htake
    cases hnext : takeFirst? (isReady placed) waiting with
    | none =>
      rw [hnext] at htake
      rw [arrange_of_none hnext, arrange_of_none htake]
      rfl
    | some taken =>
      obtain ⟨next, left⟩ := taken
      rw [hnext] at htake
      have hlength := length_of_takeFirst? hnext
      rw [arrange_of_some hnext, arrange_of_some htake, ← ih left.length (hn ▸ hlength) _ left rfl, List.map_append]
      rfl

/-- A step for each image is a step for each item, when the steps are images of each other. -/
theorem mapM_map_eq {ε α β γ δ : Type} {f : α → Except ε β} {g : γ → Except ε δ} {h : α → γ} {k : β → δ}
    (hstep : ∀ a, g (h a) = (f a).map k) (as : List α) : (as.map h).mapM g = (as.mapM f).map (List.map k) := by
  induction as with
  | nil => rfl
  | cons a rest ih =>
    rw [List.map_cons, List.mapM_cons, List.mapM_cons, hstep, ih]
    cases f a with
    | error e => rfl
    | ok b => cases rest.mapM f <;> rfl

/-- Pruned classes are put in the same order. -/
theorem orderClasses_pruned (model : Metamodel) (stage : Stage) (classes : List ClassModel) :
    orderClasses model.pruned stage (classes.map ClassModel.pruned)
      = (orderClasses model stage classes).map (List.map ClassModel.pruned) := by
  unfold orderClasses
  rw [mapM_map_eq (Candidate.ofClass_pruned model classes)]
  cases classes.mapM (Candidate.ofClass model classes) with
  | error e => rfl
  | ok candidates =>
    have harrange : Candidate.arrange [] (candidates.map Candidate.pruned)
        = (Candidate.arrange [] candidates).map (List.map ClassModel.pruned) (List.map Candidate.pruned) :=
      Candidate.arrange_pruned [] candidates
    simp only [Except.map, Except.mapError, bind, Except.bind, harrange]
    rcases Candidate.arrange [] candidates with ⟨ordered, stuck⟩
    cases stuck with
    | nil => rfl
    | cons first others =>
      -- The classes that are stuck keep their names.
      simp [Prod.map, Candidate.pruned, ClassModel.pruned, Function.comp_def]

/-- Pruned classes pass the check of their hierarchy when they did. -/
theorem checkHierarchy_pruned (model : Metamodel) (stage : Stage) (classes : List ClassModel) :
    checkHierarchy model.pruned stage (classes.map ClassModel.pruned) = checkHierarchy model stage classes := by
  unfold checkHierarchy
  induction classes with
  | nil => rfl
  | cons c rest ih =>
    have hancestors :
        (model.pruned.ancestors c.pruned).mapError (GenerationError.ofHierarchy stage) >>= (fun _ => pure ())
          = (model.ancestors c).mapError (GenerationError.ofHierarchy stage) >>= fun _ => pure () :=
      ((model.relates_pruned.ancestors rfl).mapError _).bind_eq fun _ _ _ => rfl
    rw [List.map_cons, forM_cons_eq, forM_cons_eq, ih]
    exact congrArg (· >>= fun _ => _) hancestors

/-- A stage takes the pruned classes that it took before. -/
theorem Stage.classes_pruned (model : Metamodel) (stage : Stage) :
    stage.classes model.pruned = (stage.classes model).map ClassModel.pruned := by
  have hkind : model.pruned.classesOf = fun kind => (model.classesOf kind).map ClassModel.pruned :=
    funext fun kind => List.filter_map
  unfold Stage.classes
  rw [hkind, ← List.map_flatMap]
  exact List.filter_map

/-- The plans of the pruned metamodel are those of the metamodel, pruned. -/
theorem Metamodel.plan_pruned (model : Metamodel) : model.pruned.plan = model.plan.map (List.map StagePlan.pruned) := by
  have hstage : ∀ stage,
      StagePlan.ofStage model.pruned stage = (StagePlan.ofStage model stage).map StagePlan.pruned := by
    intro stage
    unfold StagePlan.ofStage
    simp only [Stage.classes_pruned, checkHierarchy_pruned, orderClasses_pruned]
    cases checkHierarchy model stage (stage.classes model) with
    | error e => rfl
    | ok _ => cases orderClasses model stage (stage.classes model) <;> rfl
  have hmap := mapM_map_eq (h := id) hstage (Spelled.values : List Stage)
  rwa [List.map_id] at hmap

/-! ## Runs -/

section Runs

variable {m : Type → Type} [Monad m] {σ : Type} [PrimeSource σ] (generator : Generator m)

/-- What generates the classes of the pruned metamodel. -/
def Generator.pruned : Generator m :=
  { generator with model := generator.model.pruned }

/-- A stage with pruned classes goes as with the classes themselves. -/
theorem Generator.runClasses_pruned (stage : Stage) (report : Report) (primes : σ) (classes : List ClassModel) :
    generator.pruned.runClasses stage report primes (classes.map ClassModel.pruned)
      = generator.runClasses stage report primes classes := by
  induction classes generalizing report primes with
  | nil => rfl
  | cons c rest ih =>
    have hassemble : assemble generator.pruned.model generator.pruned.options c.pruned primes
        = assemble generator.model generator.options c primes :=
      assemble_pruned generator.model generator.options c primes
    rw [List.map_cons, runClasses, runClasses, hassemble]
    split
    · rfl
    · simp only [ih]
      rfl

theorem Generator.runStages_pruned (report : Report) (primes : σ) (plans : List StagePlan) :
    generator.pruned.runStages report primes (plans.map StagePlan.pruned)
      = generator.runStages report primes plans := by
  induction plans generalizing report primes with
  | nil => rfl
  | cons plan rest ih =>
    have hclasses := generator.runClasses_pruned plan.stage report primes plan.classes
    rw [List.map_cons, runStages, runStages]
    simp only [ih]
    exact congrArg (· >>= _) hclasses

/-- **What is disabled is inert.** Whatever the options, the primes and the writer: the run of the pruned metamodel is
that of the metamodel. It is the same error, or it registers the same classes, writes the same sources, and reports the
same failures. -/
theorem run_pruned (primes : σ) : generator.pruned.run primes = generator.run primes := by
  have hmodel : generator.pruned.model = generator.model.pruned := rfl
  unfold Generator.run
  rw [hmodel, Metamodel.plan_pruned]
  cases generator.model.plan with
  | error e => rfl
  | ok plans =>
    show generator.pruned.runStages .empty primes (plans.map StagePlan.pruned) >>= _ = _
    rw [generator.runStages_pruned]

end Runs

/-! ## Constructors of composite keys -/

/-- The class without what is disabled or unselected, whatever it is. -/
def ClassModel.stripped (c : ClassModel) : ClassModel :=
  { c.pruned with constructors := c.constructors.filter (·.enabled) }

/-- The metamodel without what is disabled or unselected, whatever it is. -/
def Metamodel.stripped (model : Metamodel) : Metamodel :=
  { model.pruned with classes := model.classes.map ClassModel.stripped }

/-- A composite key that declares a constructor, which is disabled. -/
def keyedOrders : Metamodel :=
  { Metamodel.empty "shop" with
    classes :=
      [{ ClassModel.empty "OrderKey" .idClass with
          attributes := [.plain "line" "int"]
          constructors := [{ ConstructorModel.of ["line"] with enabled := false }] }] }

/-- How many constructors each registered class has, and whether it has a hash code. -/
def Report.keyParts (report : Report) : List (Nat × Bool) :=
  report.catalogue.registered.map fun c => (c.constructors.length, c.hashCodeMethod.isSome)

/-- Without its disabled constructor, the key is generated with two constructors and a hash code. -/
theorem run_stripped_keyedOrders :
    ∃ (report stripped : Report) (primes primes' : PrimeSupply) (sources sources' : Sources),
      runInMemory keyedOrders fixedOptions (fixedOptions.supply 0) = (.ok (report, primes), sources)
        ∧ runInMemory keyedOrders.stripped fixedOptions (fixedOptions.supply 0) = (.ok (stripped, primes'), sources')
        ∧ report.keyParts = [(0, false)]
        ∧ stripped.keyParts = [(2, true)] := by
  obtain ⟨report, primes, sources, hrun, hreport⟩ :=
    exists_report (runInMemory keyedOrders fixedOptions (fixedOptions.supply 0)) Report.keyParts
      (a := [(0, false)]) (by decide +kernel)
  obtain ⟨stripped, primes', sources', hrun', hstripped⟩ :=
    exists_report (runInMemory keyedOrders.stripped fixedOptions (fixedOptions.supply 0)) Report.keyParts
      (a := [(2, true)]) (by decide +kernel)
  exact ⟨report, stripped, primes, primes', sources, sources', hrun, hrun', hreport, hstripped⟩

end EntityForge
