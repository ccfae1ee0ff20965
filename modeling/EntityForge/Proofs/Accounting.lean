import EntityForge.Generation.Run
import EntityForge.Proofs.Assembly
import EntityForge.Proofs.Planning
import Mathlib.Data.List.Perm.Basic

/-!
# What a run accounts for

A run deals with the classes of each stage in their planned order up to the first that fails, and leaves out those after
it. What it did in a stage is a `StageOutcome`; the report of a run is made up of the outcomes of its stages.

The writer is any function on a state of any type, so that it may fail on any of its calls. The primes and the state
of the writer are handed on from one class to the next (`StagesRun`).

Main statement: `run_accounts_for_every_class`.
-/

namespace EntityForge

/-! ## Outcomes -/

/-- A class that was generated and written, with what the writer returned for it. -/
structure Done where
  subject : ClassModel
  artifact : JavaClass
  unit : WrittenUnit

/-- A class that failed and so ended its stage. -/
structure Halt where
  subject : ClassModel
  /-- The generated class, if writing it is what failed. -/
  artifact : Option JavaClass
  error : GenerationError
  /-- The classes after it. -/
  skipped : List ClassModel

/-- What was done in a stage. -/
structure StageOutcome where
  stage : Stage
  done : List Done
  /-- The class that ended the stage, if any did. -/
  halt : Option Halt

namespace StageOutcome

/-- All classes of the stage: those that were written, the one that failed and those that were skipped. -/
def planned (o : StageOutcome) : List ClassModel :=
  o.done.map (·.subject) ++ o.halt.toList.flatMap fun h => h.subject :: h.skipped

/-- The plan that the stage had. -/
def plan (o : StageOutcome) : StagePlan :=
  { stage := o.stage, classes := o.planned }

/-- The generated classes, the one that could not be written included. -/
def artifacts (o : StageOutcome) : List JavaClass :=
  o.done.map (·.artifact) ++ o.halt.toList.flatMap (·.artifact.toList)

/-- What the writer returned for the written classes. -/
def units (o : StageOutcome) : List WrittenUnit :=
  o.done.map (·.unit)

/-- The failure of the class that ended the stage. -/
def failures (o : StageOutcome) : List Failure :=
  o.halt.toList.map fun h => .ofClass h.subject o.stage h.error

/-- The generated classes of a kind: those that were written, and then the one that could not be written. -/
def artifactsOfKind (o : StageOutcome) (kind : ClassKind) : List JavaClass :=
  (o.done.filter (·.subject.kind = kind)).map (·.artifact)
    ++ (o.halt.toList.filter (·.subject.kind = kind)).flatMap (·.artifact.toList)

end StageOutcome

/-! ## How outcomes come about -/

variable {σ S : Type} [PrimeSource σ]

/-- The class is generated with the primes and written by the writer, which leaves what is left of the primes and a new
state of the writer. -/
def Generates (generator : Generator (StateM S)) (before : σ × S) (d : Done) (after : σ × S) : Prop :=
  assemble generator.model generator.options d.subject before.1 = (.ok d.artifact, after.1)
    ∧ (generator.write d.artifact).run before.2 = (.ok d.unit, after.2)

/-- The class cannot be assembled, and the writer is not called; or it is assembled and the writer fails. -/
def Fails (generator : Generator (StateM S)) (before : σ × S) (h : Halt) (after : σ × S) : Prop :=
  match h.artifact with
  | none =>
    assemble generator.model generator.options h.subject before.1 = (.error h.error, after.1)
      ∧ after.2 = before.2
  | some artifact =>
    assemble generator.model generator.options h.subject before.1 = (.ok artifact, after.1)
      ∧ (generator.write artifact).run before.2 = (.error h.error, after.2)

/-- Classes are generated one after the other. -/
inductive GeneratesAll (generator : Generator (StateM S)) : σ × S → List Done → σ × S → Prop
  | nil {x : σ × S} : GeneratesAll generator x [] x
  | cons {x y z : σ × S} {d : Done} {rest : List Done} (head : Generates generator x d y)
      (tail : GeneratesAll generator y rest z) : GeneratesAll generator x (d :: rest) z

/-- A stage comes to an outcome: its classes are generated one after the other, until all are or one fails. -/
inductive StageRuns (generator : Generator (StateM S)) : σ × S → StageOutcome → σ × S → Prop
  | completed {x y : σ × S} {stage : Stage} {done : List Done}
      (all : GeneratesAll generator x done y) :
      StageRuns generator x { stage, done, halt := none } y
  | halted {x y z : σ × S} {stage : Stage} {done : List Done} {h : Halt}
      (all : GeneratesAll generator x done y) (fails : Fails generator y h z) :
      StageRuns generator x { stage, done, halt := some h } z

/-- Stages come to their outcomes one after the other. -/
inductive StagesRun (generator : Generator (StateM S)) : σ × S → List StageOutcome → σ × S → Prop
  | nil {x : σ × S} : StagesRun generator x [] x
  | cons {x y z : σ × S} {o : StageOutcome} {rest : List StageOutcome}
      (head : StageRuns generator x o y) (tail : StagesRun generator y rest z) :
      StagesRun generator x (o :: rest) z

/-- One more class is generated before the others of a stage. -/
theorem StageRuns.cons {generator : Generator (StateM S)} {x y z : σ × S} {d : Done}
    {o : StageOutcome} (hd : Generates generator x d y) (h : StageRuns generator y o z) :
    StageRuns generator x { o with done := d :: o.done } z := by
  cases h with
  | completed all => exact .completed (.cons hd all)
  | halted all fails => exact .halted (.cons hd all) fails

/-! ## Reports -/

namespace Catalogue

/-- The catalogue with further classes, registered one after the other. -/
def registerAll (catalogue : Catalogue) (classes : List JavaClass) : Catalogue :=
  classes.foldl register catalogue

@[simp] theorem registerAll_nil (catalogue : Catalogue) : catalogue.registerAll [] = catalogue :=
  rfl

@[simp] theorem registerAll_cons (catalogue : Catalogue) (c : JavaClass) (classes : List JavaClass) :
    catalogue.registerAll (c :: classes) = (catalogue.register c).registerAll classes :=
  rfl

@[simp] theorem registerAll_append (catalogue : Catalogue) (classes others : List JavaClass) :
    catalogue.registerAll (classes ++ others) = (catalogue.registerAll classes).registerAll others :=
  List.foldl_append

@[simp] theorem registered_registerAll (catalogue : Catalogue) (classes : List JavaClass) :
    (catalogue.registerAll classes).registered = catalogue.registered ++ classes := by
  induction classes generalizing catalogue with
  | nil => exact (List.append_nil _).symm
  | cons c rest ih =>
    rw [registerAll_cons, ih, register, List.append_assoc, List.singleton_append]

end Catalogue

namespace Report

/-- The report with all that was done in a stage. -/
def after (report : Report) (o : StageOutcome) : Report :=
  { catalogue := report.catalogue.registerAll o.artifacts
    written := report.written ++ o.units
    failures := report.failures ++ o.failures }

theorem after_nothing (report : Report) (stage : Stage) :
    report.after { stage, done := [], halt := none } = report := by
  simp [after, StageOutcome.artifacts, StageOutcome.units, StageOutcome.failures]

theorem after_unassembled (report : Report) (stage : Stage) (c : ClassModel) (e : GenerationError)
    (skipped : List ClassModel) :
    report.after { stage, done := [], halt := some ⟨c, none, e, skipped⟩ }
      = report.failed (.ofClass c stage e) := by
  simp [after, StageOutcome.artifacts, StageOutcome.units, StageOutcome.failures, failed]

theorem after_unwritten (report : Report) (stage : Stage) (c : ClassModel) (artifact : JavaClass)
    (e : GenerationError) (skipped : List ClassModel) :
    report.after { stage, done := [], halt := some ⟨c, some artifact, e, skipped⟩ }
      = (report.register artifact).failed (.ofClass c stage e) := by
  simp [after, StageOutcome.artifacts, StageOutcome.units, StageOutcome.failures, failed, register]

theorem after_cons (report : Report) (o : StageOutcome) (d : Done) :
    report.after { o with done := d :: o.done }
      = ((report.register d.artifact).wrote d.unit).after o := by
  simp [after, StageOutcome.artifacts, StageOutcome.units, StageOutcome.failures, register, wrote]

/-- The report with all that was done in several stages. -/
def afterAll (report : Report) (outcomes : List StageOutcome) : Report :=
  { catalogue := report.catalogue.registerAll (outcomes.flatMap (·.artifacts))
    written := report.written ++ outcomes.flatMap (·.units)
    failures := report.failures ++ outcomes.flatMap (·.failures) }

theorem afterAll_nil (report : Report) : report.afterAll [] = report := by
  simp [afterAll]

/-- The stages alone have registered what is in the report. -/
theorem registered_afterAll_empty (outcomes : List StageOutcome) :
    (empty.afterAll outcomes).catalogue.registered = outcomes.flatMap (·.artifacts) := by
  rw [afterAll, Catalogue.registered_registerAll]
  rfl

theorem afterAll_cons (report : Report) (o : StageOutcome) (outcomes : List StageOutcome) :
    report.afterAll (o :: outcomes) = (report.after o).afterAll outcomes := by
  simp [afterAll, after]

end Report

/-! ## Running a stage -/

section Steps

variable {generator : Generator (StateM S)} {stage : Stage} {report : Report} {c : ClassModel}
  {rest : List ClassModel} {primes primes' : σ} {s s' : S} {artifact : JavaClass}

theorem run_runClasses_of_unassembled {e : GenerationError}
    (hassemble : assemble generator.model generator.options c primes = (.error e, primes')) :
    (generator.runClasses stage report primes (c :: rest)).run s
      = ((report.failed (.ofClass c stage e), primes'), s) := by
  rw [Generator.runClasses, hassemble]
  rfl

theorem run_runClasses_of_unwritten {e : GenerationError}
    (hassemble : assemble generator.model generator.options c primes = (.ok artifact, primes'))
    (hwrite : (generator.write artifact).run s = (.error e, s')) :
    (generator.runClasses stage report primes (c :: rest)).run s
      = (((report.register artifact).failed (.ofClass c stage e), primes'), s') := by
  rw [Generator.runClasses, hassemble]
  simp only
  rw [StateT.run_bind, hwrite]
  rfl

theorem run_runClasses_of_written {unit : WrittenUnit}
    (hassemble : assemble generator.model generator.options c primes = (.ok artifact, primes'))
    (hwrite : (generator.write artifact).run s = (.ok unit, s')) :
    (generator.runClasses stage report primes (c :: rest)).run s
      = (generator.runClasses stage ((report.register artifact).wrote unit) primes' rest).run s' := by
  rw [Generator.runClasses, hassemble]
  simp only
  rw [StateT.run_bind, hwrite]
  rfl

end Steps

/-- Running the classes of a stage adds its outcome to the report. -/
theorem runClasses_outcome (generator : Generator (StateM S)) (stage : Stage) (report : Report)
    (primes : σ) (s : S) (classes : List ClassModel) :
    ∃ (o : StageOutcome) (primes' : σ) (s' : S), o.plan = { stage, classes }
      ∧ StageRuns generator (primes, s) o (primes', s')
      ∧ (generator.runClasses stage report primes classes).run s
        = ((report.after o, primes'), s') := by
  induction classes generalizing report primes s with
  | nil =>
    refine ⟨{ stage, done := [], halt := none }, primes, s, rfl, .completed .nil, ?_⟩
    rw [Report.after_nothing]
    rfl
  | cons c rest ih =>
    rcases hassemble : assemble generator.model generator.options c primes with ⟨result, primes₁⟩
    cases result with
    -- The class is not assembled: it ends the stage, and the writer is not called.
    | error e =>
      refine ⟨{ stage, done := [], halt := some ⟨c, none, e, rest⟩ }, primes₁, s,
        by simp [StageOutcome.plan, StageOutcome.planned], .halted .nil ⟨hassemble, rfl⟩, ?_⟩
      rw [run_runClasses_of_unassembled hassemble, Report.after_unassembled]
    | ok artifact =>
      rcases hwrite : (generator.write artifact).run s with ⟨written, s₁⟩
      cases written with
      -- The class is registered before it is written, so it stays registered.
      | error e =>
        refine ⟨{ stage, done := [], halt := some ⟨c, some artifact, e, rest⟩ }, primes₁, s₁,
          by simp [StageOutcome.plan, StageOutcome.planned], .halted .nil ⟨hassemble, hwrite⟩, ?_⟩
        rw [run_runClasses_of_unwritten hassemble hwrite, Report.after_unwritten]
      | ok unit =>
        obtain ⟨o, primes', s', hplan, hruns, hrun⟩ :=
          ih ((report.register artifact).wrote unit) primes₁ s₁
        have hgenerates : Generates generator (primes, s) ⟨c, artifact, unit⟩ (primes₁, s₁) :=
          ⟨hassemble, hwrite⟩
        refine ⟨{ o with done := ⟨c, artifact, unit⟩ :: o.done }, primes', s', ?_,
          hruns.cons hgenerates, ?_⟩
        · rw [StageOutcome.plan, StagePlan.mk.injEq] at hplan ⊢
          exact ⟨hplan.1, congrArg (c :: ·) hplan.2⟩
        · rw [run_runClasses_of_written hassemble hwrite, Report.after_cons]
          exact hrun

/-- Running planned stages adds their outcomes to the report. -/
theorem runStages_outcomes (generator : Generator (StateM S)) (report : Report) (primes : σ) (s : S)
    (plans : List StagePlan) :
    ∃ (outcomes : List StageOutcome) (primes' : σ) (s' : S),
      outcomes.map (·.plan) = plans ∧ StagesRun generator (primes, s) outcomes (primes', s')
      ∧ (generator.runStages report primes plans).run s
        = ((report.afterAll outcomes, primes'), s') := by
  induction plans generalizing report primes s with
  | nil =>
    refine ⟨[], primes, s, rfl, .nil, ?_⟩
    rw [Report.afterAll_nil]
    rfl
  | cons plan rest ih =>
    obtain ⟨o, primes₁, s₁, hplan, hruns, hrun⟩ :=
      runClasses_outcome generator plan.stage report primes s plan.classes
    obtain ⟨outcomes, primes', s', hplans, hrest, hrunRest⟩ := ih (report.after o) primes₁ s₁
    refine ⟨o :: outcomes, primes', s', ?_, .cons hruns hrest, ?_⟩
    · rw [List.map_cons, hplan, hplans]
    · rw [Report.afterAll_cons, Generator.runStages, StateT.run_bind, hrun]
      exact hrunRest

/-- Each class that was written is one that was generated. -/
theorem GeneratesAll.exists_of_mem {generator : Generator (StateM S)} {x z : σ × S}
    {done : List Done} (h : GeneratesAll generator x done z) {d : Done} (hd : d ∈ done) :
    ∃ before after : σ × S, Generates generator before d after := by
  induction h with
  | nil => exact absurd hd (by simp)
  | cons head _ ih =>
    rcases List.mem_cons.mp hd with rfl | hd
    · exact ⟨_, _, head⟩
    · exact ih hd

/-- Each outcome is that of a stage that ran. -/
theorem StagesRun.exists_of_mem {generator : Generator (StateM S)} {x z : σ × S}
    {outcomes : List StageOutcome} (h : StagesRun generator x outcomes z) {o : StageOutcome}
    (ho : o ∈ outcomes) : ∃ before after : σ × S, StageRuns generator before o after := by
  induction h with
  | nil => exact absurd ho (by simp)
  | cons head _ ih =>
    rcases List.mem_cons.mp ho with rfl | ho
    · exact ⟨_, _, head⟩
    · exact ih ho

/-- The class that ended a stage failed. -/
theorem StageRuns.fails_of_halt {generator : Generator (StateM S)} {x z : σ × S} {o : StageOutcome}
    {h : Halt} (hruns : StageRuns generator x o z) (hhalt : o.halt = some h) :
    ∃ before after : σ × S, Fails generator before h after := by
  cases hruns with
  | completed _ => exact absurd hhalt (by simp)
  | halted _ fails =>
    rw [Option.some.injEq] at hhalt
    exact ⟨_, _, hhalt ▸ fails⟩

/-- The written classes of a stage were generated. -/
theorem StageRuns.generates_of_mem_done {generator : Generator (StateM S)} {x z : σ × S}
    {o : StageOutcome} {d : Done} (hruns : StageRuns generator x o z) (hd : d ∈ o.done) :
    ∃ before after : σ × S, Generates generator before d after := by
  cases hruns with
  | completed all => exact all.exists_of_mem hd
  | halted all _ => exact all.exists_of_mem hd

/-! ## Generated classes and their kinds -/

/-- A generated class is told by its kind and its full name to come from a class of the metamodel. -/
def GeneratedFrom (model : Metamodel) (c : ClassModel) (artifact : JavaClass) : Prop :=
  artifact.kind = c.kind ∧ artifact.name = c.name
    ∧ artifact.qualifiedName = c.qualifiedName model.package

theorem Generates.generatedFrom {generator : Generator (StateM S)} {x y : σ × S} {d : Done}
    (h : Generates generator x d y) : GeneratedFrom generator.model d.subject d.artifact :=
  assemble_identity h.1

theorem Fails.generatedFrom {generator : Generator (StateM S)} {x y : σ × S} {h : Halt}
    {artifact : JavaClass} (hfails : Fails generator x h y) (hartifact : h.artifact = some artifact) :
    GeneratedFrom generator.model h.subject artifact := by
  rw [Fails, hartifact] at hfails
  exact assemble_identity hfails.1

theorem Fails.exists_fault {generator : Generator (StateM S)} {x y : σ × S} {h : Halt}
    (hfails : Fails generator x h y) (hnone : h.artifact = none) :
    ∃ fault, h.error = .invalidInput h.subject.name fault := by
  rw [Fails, hnone] at hfails
  exact exists_fault_of_assemble_eq_error hfails.1

/-- The generated classes of a stage, sorted by kind, are those of its classes of that kind. -/
theorem StageRuns.filter_artifacts {generator : Generator (StateM S)} {x z : σ × S}
    {o : StageOutcome} (hruns : StageRuns generator x o z) (kind : ClassKind) :
    o.artifacts.filter (·.kind == kind) = o.artifactsOfKind kind := by
  have hdone : ∀ d ∈ o.done, d.artifact.kind = d.subject.kind := by
    intro d hd
    obtain ⟨_, _, hgenerates⟩ := hruns.generates_of_mem_done hd
    exact hgenerates.generatedFrom.1
  -- The kind of a generated class is that of its class, so both sides select the same ones.
  rw [StageOutcome.artifacts, StageOutcome.artifactsOfKind, List.filter_append, List.filter_map]
  congr 1
  · congr 1
    refine List.filter_congr fun d hd => ?_
    rw [Function.comp, hdone d hd]
    by_cases hk : d.subject.kind = kind <;> simp [hk]
  · cases hhalt : o.halt with
    | none => rfl
    | some h =>
      cases hartifact : h.artifact with
      | none =>
        by_cases hk : h.subject.kind = kind <;> simp [hk, hartifact]
      | some artifact =>
        obtain ⟨_, _, hfails⟩ := hruns.fails_of_halt hhalt
        have hkind := (hfails.generatedFrom hartifact).1
        by_cases hk : h.subject.kind = kind <;> simp [hk, hartifact, hkind]

/-- A stage has nothing of the kinds of other stages. -/
theorem StageOutcome.artifactsOfKind_eq_nil {o : StageOutcome} {kind : ClassKind}
    (hkinds : ∀ c ∈ o.planned, Stage.ofKind c.kind = o.stage) (hkind : Stage.ofKind kind ≠ o.stage) :
    o.artifactsOfKind kind = [] := by
  have hne : ∀ c ∈ o.planned, c.kind ≠ kind := by
    rintro c hc rfl
    exact hkind (hkinds c hc)
  have hdone : o.done.filter (·.subject.kind = kind) = [] := by
    rw [List.filter_eq_nil_iff]
    intro d hd
    simpa using hne d.subject (List.mem_append_left _ (List.mem_map_of_mem hd))
  have hhalt : o.halt.toList.filter (·.subject.kind = kind) = [] := by
    rw [List.filter_eq_nil_iff]
    intro h hh
    have hmem : h.subject ∈ o.planned :=
      List.mem_append_right _ (List.mem_flatMap.mpr ⟨h, hh, List.mem_cons_self⟩)
    simpa using hne h.subject hmem
  rw [StageOutcome.artifactsOfKind, hdone, hhalt]
  rfl

/-- What only one item of a list contributes to is what that item contributes. -/
theorem flatMap_eq_of_unique {α β κ : Type} {key : α → κ} {f : α → List β} {as : List α}
    (hkeys : (as.map key).Nodup) {a : α} (ha : a ∈ as)
    (hf : ∀ b ∈ as, key b ≠ key a → f b = []) : as.flatMap f = f a := by
  induction as with
  | nil => exact absurd ha (by simp)
  | cons b rest ih =>
    rw [List.map_cons, List.nodup_cons] at hkeys
    rw [List.flatMap_cons]
    rcases List.mem_cons.mp ha with rfl | ha
    · have hrest : rest.flatMap f = [] := by
        rw [List.flatMap_eq_nil_iff]
        intro c hc
        refine hf c (List.mem_cons_of_mem _ hc) fun hkey => hkeys.1 ?_
        exact hkey ▸ List.mem_map_of_mem hc
      rw [hrest, List.append_nil]
    · have hb : f b = [] := by
        refine hf b List.mem_cons_self fun hkey => hkeys.1 ?_
        exact hkey ▸ List.mem_map_of_mem ha
      rw [hb, List.nil_append]
      exact ih hkeys.2 ha fun c hc => hf c (List.mem_cons_of_mem _ hc)

/-- The classes of all stages together are the classes that are to be generated. -/
theorem flatMap_classes_perm (model : Metamodel) :
    ((Spelled.values : List Stage).flatMap fun stage => stage.classes model).Perm
      (model.classes.filter (·.generateSource)) := by
  have hkind : ∀ (c : ClassModel) (kind : ClassKind),
      (model.classesOf kind).count c = if c.kind = kind then model.classes.count c else 0 := by
    intro c kind
    rw [Metamodel.classesOf]
    split
    · next h => exact List.count_filter (by simpa using h)
    · next h => exact List.count_eq_zero.mpr fun hmem => h (by simpa using (List.mem_filter.mp hmem).2)
  -- A class that is to be generated is counted in the stage of its kind, and in that stage under its kind alone.
  rw [List.perm_iff_count]
  intro c
  by_cases hc : c.generateSource = true
  · rw [List.count_filter (by simpa using hc), List.count_flatMap]
    simp only [Spelled.values, List.map_cons, List.map_nil, Function.comp, Stage.classes]
    simp only [List.count_filter (show (fun d : ClassModel => d.generateSource) c = true from hc)]
    cases hk : c.kind <;> simp [Stage.kinds, hkind, hk]
  · have hfilter : (model.classes.filter (·.generateSource)).count c = 0 :=
      List.count_eq_zero.mpr fun hmem => hc (by simpa using (List.mem_filter.mp hmem).2)
    rw [hfilter, List.count_eq_zero]
    intro hmem
    obtain ⟨stage, -, hmem⟩ := List.mem_flatMap.mp hmem
    exact hc (Stage.mem_classes_iff.mp hmem).2.1

/-! ## The account of a run -/

/-- What the report of a run says, given the outcomes of its stages. `before` and `after` are the primes and the
state of the writer before and after the run. -/
structure Accounts (generator : Generator (StateM S)) (before after : σ × S) (report : Report)
    (outcomes : List StageOutcome) : Prop where
  /-- There is one outcome for each stage, in the order of the stages. -/
  stages : outcomes.map (·.stage) = Spelled.values
  /-- An outcome splits the planned order of its stage. -/
  planned : ∀ o ∈ outcomes,
    orderClasses generator.model o.stage (o.stage.classes generator.model) = .ok o.planned
  runs : StagesRun generator before outcomes after
  written : report.written = outcomes.flatMap (·.units)
  registered : ∀ o ∈ outcomes, ∀ kind ∈ o.stage.kinds,
    report.catalogue.ofKind kind = o.artifactsOfKind kind
  failures : report.failures = outcomes.flatMap (·.failures)
  /-- The failures of a stage are those of its outcome: none, or the one of the class that ended it. -/
  failures_of_stage : ∀ o ∈ outcomes, report.failures.filter (·.stage = o.stage) = o.failures
  /-- No stage has two failures, and they are in the order of the stages. -/
  failure_stages : (report.failures.map (·.stage)).Sublist Spelled.values
  /-- The classes in the outcomes are those that are to be generated, each as often as it is declared. -/
  complete : (outcomes.flatMap (·.planned)).Perm (generator.model.classes.filter (·.generateSource))
  generated : ∀ o ∈ outcomes,
    (∀ d ∈ o.done, GeneratedFrom generator.model d.subject d.artifact)
    ∧ ∀ h ∈ o.halt, ∀ artifact ∈ h.artifact, GeneratedFrom generator.model h.subject artifact
  /-- A class that could not be assembled is named by its error. -/
  faults : ∀ o ∈ outcomes, ∀ h ∈ o.halt, h.artifact = none →
    ∃ fault, h.error = .invalidInput h.subject.name fault

/-- The plans of a model are those of the stages, and hold their classes in order. -/
theorem plan_spec {model : Metamodel} {plans : List StagePlan} (h : model.plan = .ok plans) :
    plans.map (·.stage) = Spelled.values
      ∧ ∀ plan ∈ plans, orderClasses model plan.stage (plan.stage.classes model) = .ok plan.classes := by
  have hplans := forall₂_of_mapM_eq_ok h
  have hplan : ∀ stage plan, StagePlan.ofStage model stage = .ok plan →
      plan.stage = stage ∧ orderClasses model stage (stage.classes model) = .ok plan.classes := by
    intro stage plan hstage
    obtain ⟨_, -, hstage⟩ := bind_eq_ok_iff.mp hstage
    obtain ⟨ordered, hordered, hstage⟩ := bind_eq_ok_iff.mp hstage
    rw [← Except.ok.inj hstage]
    exact ⟨rfl, hordered⟩
  constructor
  · have heq := (List.forall₂_map_right_iff (f := fun plan : StagePlan => plan.stage)).mpr
      (hplans.imp fun stage plan hstage => (hplan stage plan hstage).1.symm)
    rw [List.forall₂_eq_eq_eq] at heq
    exact heq.symm
  · intro plan hmem
    obtain ⟨stage, -, hstage⟩ := exists_mem_right_of_forall₂ hplans.flip hmem
    obtain ⟨rfl, hordered⟩ := hplan stage plan hstage
    exact hordered

/-- Of outcomes with different stages, at most one failure of each stage is left, in the order of the stages. -/
theorem map_stage_failures_sublist (outcomes : List StageOutcome) :
    ((outcomes.flatMap (·.failures)).map (·.stage)).Sublist (outcomes.map (·.stage)) := by
  induction outcomes with
  | nil => exact .refl _
  | cons o rest ih =>
    rw [List.flatMap_cons, List.map_append, List.map_cons]
    cases hhalt : o.halt with
    | none => simpa [StageOutcome.failures, hhalt] using ih.cons o.stage
    | some h => simpa [StageOutcome.failures, hhalt, Failure.ofClass] using ih

/-- Once there are plans for all stages, a run returns a report that is made up of the outcomes of the stages. -/
theorem exists_outcomes_of_plan {generator : Generator (StateM S)} {plans : List StagePlan}
    (hplan : generator.model.plan = .ok plans) (primes : σ) (s : S) :
    ∃ (outcomes : List StageOutcome) (primes' : σ) (s' : S),
      generator.model.plan = .ok (outcomes.map (·.plan))
      ∧ StagesRun generator (primes, s) outcomes (primes', s')
      ∧ (generator.run primes).run s = (.ok (Report.empty.afterAll outcomes, primes'), s') := by
  obtain ⟨outcomes, p, t, rfl, hruns, hrun⟩ := runStages_outcomes generator .empty primes s plans
  refine ⟨outcomes, p, t, hplan, hruns, ?_⟩
  rw [Generator.run, hplan]
  simp only
  rw [StateT.run_bind, hrun]
  rfl

/-- A run that returns a report had plans for all its stages, and its report is made up of their outcomes. -/
theorem exists_outcomes_of_run {generator : Generator (StateM S)} {primes primes' : σ} {s s' : S}
    {report : Report} (h : (generator.run primes).run s = (.ok (report, primes'), s')) :
    ∃ outcomes, generator.model.plan = .ok (outcomes.map (·.plan))
      ∧ StagesRun generator (primes, s) outcomes (primes', s')
      ∧ report = Report.empty.afterAll outcomes := by
  cases hplan : generator.model.plan with
  | error e =>
    rw [Generator.run, hplan] at h
    exact absurd (congrArg Prod.fst h) (fun hne => by cases hne)
  | ok plans =>
    obtain ⟨outcomes, p, t, hplans, hruns, hrun⟩ := exists_outcomes_of_plan hplan primes s
    have heq := h.symm.trans hrun
    cases heq
    exact ⟨outcomes, hplan ▸ hplans, hruns, rfl⟩

/-- What is registered under a kind comes from the stage of that kind alone. -/
theorem StagesRun.ofKind_afterAll {generator : Generator (StateM S)} {x z : σ × S}
    {outcomes : List StageOutcome} (hruns : StagesRun generator x outcomes z)
    (hstages : (outcomes.map (·.stage)).Nodup)
    (hkinds : ∀ o ∈ outcomes, ∀ c ∈ o.planned, Stage.ofKind c.kind = o.stage) {o : StageOutcome}
    (ho : o ∈ outcomes) {kind : ClassKind} (hkind : kind ∈ o.stage.kinds) :
    (Report.empty.afterAll outcomes).catalogue.ofKind kind = o.artifactsOfKind kind := by
  have hregistered : (Report.empty.afterAll outcomes).catalogue.ofKind kind
      = outcomes.flatMap fun o => o.artifacts.filter (·.kind == kind) := by
    rw [Catalogue.ofKind_eq_filter, Report.registered_afterAll_empty, List.filter_flatMap]
  obtain ⟨_, _, hstageRuns⟩ := hruns.exists_of_mem ho
  rw [hregistered, ← hstageRuns.filter_artifacts kind]
  refine flatMap_eq_of_unique hstages ho fun other hother hne => ?_
  obtain ⟨_, _, hotherRuns⟩ := hruns.exists_of_mem hother
  rw [hotherRuns.filter_artifacts kind]
  refine StageOutcome.artifactsOfKind_eq_nil (hkinds other hother) fun hofKind => hne ?_
  rw [← hofKind, Stage.mem_kinds_iff.mp hkind]

/-- The failures that name a stage are those of its own outcome. -/
theorem filter_failures_eq {outcomes : List StageOutcome} (hstages : (outcomes.map (·.stage)).Nodup)
    {o : StageOutcome} (ho : o ∈ outcomes) :
    (outcomes.flatMap (·.failures)).filter (·.stage = o.stage) = o.failures := by
  have hstageOf : ∀ other : StageOutcome, ∀ f ∈ other.failures, f.stage = other.stage := by
    intro other f hf
    obtain ⟨_, _, rfl⟩ := List.mem_map.mp hf
    rfl
  have hself : o.failures.filter (·.stage = o.stage) = o.failures :=
    List.filter_eq_self.mpr fun f hf => by simpa using hstageOf o f hf
  rw [List.filter_flatMap, ← hself]
  refine (flatMap_eq_of_unique hstages ho fun other hother hne => ?_).trans (by rw [hself])
  rw [List.filter_eq_nil_iff]
  intro f hf
  simpa [hstageOf other f hf] using hne

/-- The outcomes of all stages have the classes that are to be generated. -/
theorem flatMap_planned_perm {model : Metamodel} {outcomes : List StageOutcome}
    (hvalues : outcomes.map (·.stage) = Spelled.values)
    (horder : ∀ o ∈ outcomes, orderClasses model o.stage (o.stage.classes model) = .ok o.planned) :
    (outcomes.flatMap (·.planned)).Perm (model.classes.filter (·.generateSource)) := by
  have hperm : (outcomes.flatMap (·.planned)).Perm (outcomes.flatMap fun o => o.stage.classes model) :=
    List.Perm.flatMap_left outcomes fun o ho => orderClasses_perm (horder o ho)
  have hmap : outcomes.flatMap (fun o => o.stage.classes model)
      = (outcomes.map (·.stage)).flatMap fun stage => stage.classes model := by
    rw [List.flatMap_map]
  rw [hmap, hvalues] at hperm
  exact hperm.trans (flatMap_classes_perm model)

/-- **The account of a run.** Whatever the options, the primes and the writer: when a run returns a report, each stage
splits its planned classes into those that were written, one that failed and those that were skipped after it, and the
report holds exactly what the writer returned for the first, the classes that were generated, and the failures. -/
theorem run_accounts_for_every_class {generator : Generator (StateM S)} {primes primes' : σ}
    {s s' : S} {report : Report}
    (h : (generator.run primes).run s = (.ok (report, primes'), s')) :
    ∃ outcomes, Accounts generator (primes, s) (primes', s') report outcomes := by
  obtain ⟨outcomes, hplan, hruns, rfl⟩ := exists_outcomes_of_run h
  obtain ⟨hvalues, hordered⟩ := plan_spec hplan
  have horder : ∀ o ∈ outcomes,
      orderClasses generator.model o.stage (o.stage.classes generator.model) = .ok o.planned :=
    fun o ho => hordered o.plan (List.mem_map_of_mem ho)
  have hstages : outcomes.map (·.stage) = Spelled.values := by
    rw [← hvalues, List.map_map]
    rfl
  have hnodup : (outcomes.map (·.stage)).Nodup := by
    rw [hstages]
    decide
  have hkinds : ∀ o ∈ outcomes, ∀ c ∈ o.planned, Stage.ofKind c.kind = o.stage := fun o ho c hc =>
    (Stage.mem_classes_iff.mp ((orderClasses_perm (horder o ho)).mem_iff.mp hc)).2.2
  refine ⟨outcomes, hstages, horder, hruns, rfl, ?_, rfl, ?_, ?_, ?_, ?_, ?_⟩
  · exact fun o ho kind hkind => hruns.ofKind_afterAll hnodup hkinds ho hkind
  · exact fun o ho => filter_failures_eq hnodup ho
  · exact hstages ▸ map_stage_failures_sublist outcomes
  · exact flatMap_planned_perm hstages horder
  · intro o ho
    obtain ⟨_, _, hstageRuns⟩ := hruns.exists_of_mem ho
    constructor
    · intro d hd
      obtain ⟨_, _, hgenerates⟩ := hstageRuns.generates_of_mem_done hd
      exact hgenerates.generatedFrom
    · intro halt hhalt artifact hartifact
      obtain ⟨_, _, hfails⟩ := hstageRuns.fails_of_halt hhalt
      exact hfails.generatedFrom hartifact
  · intro o ho halt hhalt hnone
    obtain ⟨_, _, hstageRuns⟩ := hruns.exists_of_mem ho
    obtain ⟨_, _, hfails⟩ := hstageRuns.fails_of_halt hhalt
    exact hfails.exists_fault hnone

/-- Three entities and a bean. -/
def smallShop : Metamodel :=
  { Metamodel.empty "shop" with
    classes :=
      [.empty "Person" .entity, .empty "Tag" .entity, .empty "Order" .entity, .empty "Note" .bean] }

/-- A writer that counts its calls and refuses the class of a name. -/
def refusing (name : String) : Writer (StateM ℕ) := fun c => do
  modify (· + 1)
  if c.name = name then pure (.error (.unwritable name))
  else pure (.ok { className := c.name, path := none, bytes := 0 })

/-- When the second entity cannot be written, the third one is skipped and the bean is written all the same. -/
theorem run_accounts_for_smallShop :
    ∃ report primes calls,
      (({ model := smallShop, options := .standard, write := refusing "Tag" } :
          Generator (StateM ℕ)).run (PrimeSupply.fixed .standard)).run 0 = (.ok (report, primes), calls)
        ∧ report.written.map (·.className) = ["Person", "Note"]
        ∧ report.failures.map (·.className) = ["Tag"] ∧ calls = 3
        ∧ ∃ outcomes, Accounts
            { model := smallShop, options := .standard, write := refusing "Tag" }
            (PrimeSupply.fixed .standard, 0) (primes, calls) report outcomes := by
  have hsummary : ((({ model := smallShop, options := .standard, write := refusing "Tag" } :
          Generator (StateM ℕ)).run (PrimeSupply.fixed .standard)).run 0).map
        (fun result => result.toOption.map fun r =>
          (r.1.written.map (·.className), r.1.failures.map (·.className))) id
      = (some (["Person", "Note"], ["Tag"]), 3) := by
    decide +kernel
  rcases hrun : (({ model := smallShop, options := .standard, write := refusing "Tag" } :
      Generator (StateM ℕ)).run (PrimeSupply.fixed .standard)).run 0 with ⟨result, calls⟩
  rw [hrun] at hsummary
  cases result with
  | error e => exact absurd (congrArg Prod.fst hsummary) (by simp [Except.toOption])
  | ok r =>
    obtain ⟨report, primes⟩ := r
    simp only [Prod.map, Except.toOption, Option.map_some, Prod.mk.injEq, Option.some.injEq] at hsummary
    obtain ⟨⟨hwritten, hfailures⟩, hcalls⟩ := hsummary
    exact ⟨report, primes, calls, rfl, hwritten, hfailures, hcalls, run_accounts_for_every_class hrun⟩

end EntityForge
