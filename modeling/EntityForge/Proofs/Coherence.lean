import EntityForge.Proofs.Accounting
import EntityForge.Proofs.FieldMemo

/-!
# Coherence of generated classes

Each class is generated for itself: it climbs the hierarchy on its own, and never looks at what was generated for its
ancestors. All the same, generated classes fit together. A class extends its superclass under the name that this one was
generated with, declares no field of an ancestor again, and passes on to its superclass only fields that an ancestor
declares with the same type.

Main statement: `registered_classes_cohere`.
-/

namespace EntityForge

/-- A class generated for `c` fits the other generated classes of a metamodel. -/
structure Coherent (model : Metamodel) (registered : List JavaClass) (c : ClassModel)
    (artifact : JavaClass) : Prop where
  /-- It extends the class that was generated for its superclass. -/
  superclass : ∀ p, model.Extends c p → ∀ parent ∈ registered, parent.name = p.name →
    artifact.superclass = some parent.qualifiedName
  /-- It declares no field that a class generated for an ancestor declares. -/
  fields : ∀ a, Relation.TransGen model.Extends c a →
    ∀ ancestor ∈ registered, ancestor.name = a.name →
      ∀ f ∈ artifact.fields, ∀ g ∈ ancestor.fields, f.name ≠ g.name
  /-- The parameters that it passes on are fields of ancestors. -/
  inherited : ∀ k ∈ artifact.constructors, ∀ f ∈ k.inherited,
    ∃ a, Relation.TransGen model.Extends c a ∧ f.owner = a.name
      ∧ ∀ ancestor ∈ registered, ancestor.name = a.name →
        ∃ g ∈ ancestor.fields, g.name = f.name ∧ g.type = f.type
  /-- The parameters that it assigns are fields of its own. -/
  own : ∀ k ∈ artifact.constructors, ∀ f ∈ k.own, f ∈ artifact.fields

/-! ## Fields that a name stands for -/

namespace Workplace.IsField

variable {w : Workplace} {f : JavaField}

/-- An inherited field is that of an attribute which a proper ancestor declares. -/
theorem exists_owner (hf : w.IsField f) (hinherited : f.declared = false) :
    ∃ owner, Relation.TransGen w.model.Extends w.subject owner ∧ f.owner = owner.name
      ∧ ∃ a ∈ owner.attributes, a.name = f.name ∧ a.dataType = f.type := by
  obtain ⟨name, hname⟩ := hf
  unfold JavaField.ofName at hname
  obtain ⟨resolved, hresolved, hname⟩ := bind_eq_ok_iff.mp hname
  obtain ⟨hdeclared, -, howner⟩ := Metamodel.resolve_spec (mapError_eq_ok_iff.mp hresolved)
  split at hname
  · have htrue := JavaField.declared_of_ofAttribute_eq_ok (mapError_eq_ok_iff.mp hname)
    rw [hinherited] at htrue
    exact absurd htrue Bool.false_ne_true
  · next hforeign =>
    rw [← Except.ok.inj hname]
    rcases howner with hself | ⟨hancestor, -⟩
    · exact absurd (by simp [Resolved.isOwnedBy, hself]) hforeign
    · exact ⟨resolved.owner, hancestor, rfl, resolved.declared, hdeclared, rfl, rfl⟩

/-- A declared field is that of an attribute of the class itself. -/
theorem exists_attribute (hf : w.IsField f) (hdeclared : f.declared = true) :
    ∃ a ∈ w.subject.attributes,
      JavaField.ofName w.model w.options w.subject a.name = .ok f := by
  obtain ⟨name, hname⟩ := hf
  have hbuilt := hname
  unfold JavaField.ofName at hname
  obtain ⟨resolved, hresolved, hname⟩ := bind_eq_ok_iff.mp hname
  obtain ⟨hmem, hattribute, howner⟩ := Metamodel.resolve_spec (mapError_eq_ok_iff.mp hresolved)
  split at hname
  · next howned =>
    rcases howner with hself | ⟨-, hother⟩
    · exact ⟨resolved.declared, hself ▸ hmem, hattribute ▸ hbuilt⟩
    · exact absurd (by simpa [Resolved.isOwnedBy] using howned) hother
  · rw [← Except.ok.inj hname] at hdeclared
    exact absurd hdeclared Bool.false_ne_true

end Workplace.IsField

/-- No ancestor declares an attribute without a fault. -/
theorem attribute?_of_attributeFault?_eq_none {ancestors : List ClassModel} {seen : List String}
    {attributes : List Attribute} (h : attributeFault? ancestors seen attributes = none) :
    ∀ a ∈ attributes, ∀ d ∈ ancestors, d.attribute? a.name = none := by
  induction attributes generalizing seen with
  | nil => simp
  | cons a rest ih =>
    unfold attributeFault? at h
    split at h
    · exact absurd h (by simp)
    · split at h
      · exact absurd h (by simp)
      · split at h
        · exact absurd h (by simp)
        · next hnone =>
          refine List.forall_mem_cons.mpr ⟨fun d hd => ?_, ih h⟩
          simpa using List.find?_eq_none.mp hnone d hd

/-! ## One class -/

namespace Draft.Parts

variable {w : Workplace}

/-- The superclass within the metamodel is extended under its name in full. -/
theorem superclass_of_extends (parts : Draft.Parts w) {p : ClassModel} (hp : w.model.Extends w.subject p) :
    parts.superclass = some (p.qualifiedName w.model.package) := by
  obtain ⟨name, hname, hclass⟩ := hp
  have hsuperclassOf : w.model.superclassOf w.subject = .ok (some p) := by
    rw [Metamodel.superclassOf, hname]
    simp only
    rw [hclass]
  have hsuperclass := parts.superclass_eq
  unfold Workplace.superclass at hsuperclass
  rw [hsuperclassOf] at hsuperclass
  exact (Except.ok.inj hsuperclass).symm

/-- A field belongs to an attribute of the class. -/
theorem exists_attribute (parts : Draft.Parts w) {f : JavaField} (hf : f ∈ parts.fields) :
    ∃ a ∈ w.subject.attributes, f.name = a.name := by
  obtain ⟨a, ha, hfield⟩ := exists_mem_right_of_forall₂ parts.ofAttribute_fields.flip hf
  exact ⟨a, ha, (JavaField.eq_of_ofAttribute_eq_ok hfield).1⟩

/-- An attribute of the class has a field with its name and its type. -/
theorem exists_field (parts : Draft.Parts w) {a : Attribute} (ha : a ∈ w.subject.attributes) :
    ∃ f ∈ parts.fields, f.name = a.name ∧ f.type = a.dataType := by
  obtain ⟨f, hf, hfield⟩ := exists_mem_right_of_forall₂ parts.ofAttribute_fields ha
  obtain ⟨hname, htype, -⟩ := JavaField.eq_of_ofAttribute_eq_ok hfield
  exact ⟨f, hf, hname, htype⟩

/-- No proper ancestor declares an attribute under the name of one of the class. -/
theorem name_ne_of_ancestor (parts : Draft.Parts w) {a b : Attribute} {d : ClassModel} (ha : a ∈ w.subject.attributes)
    (hd : Relation.TransGen w.model.Extends w.subject d) (hb : b ∈ d.attributes) :
    a.name ≠ b.name := by
  have hmem : d ∈ parts.ancestors := (Metamodel.mem_ancestors_iff parts.ancestors_eq).mpr hd
  have hnone := attribute?_of_attributeFault?_eq_none parts.attributes_eq a ha d hmem
  intro hname
  exact absurd (List.find?_eq_none.mp hnone b hb) (by simp [hname])

/-- A field that the class declares is among its fields, since a name stands for one field only. -/
theorem mem_fields_of_declared (parts : Draft.Parts w) {f : JavaField} (hf : w.IsField f)
    (hdeclared : f.declared = true) : f ∈ parts.fields := by
  obtain ⟨a, ha, hname⟩ := hf.exists_attribute hdeclared
  obtain ⟨g, hg, hgname⟩ := exists_mem_right_of_forall₂ parts.ofName_fields (List.mem_map_of_mem ha)
  rw [hname, Except.ok.injEq] at hgname
  exact hgname ▸ hg

end Draft.Parts

/-! ## All classes of a run -/

section Run

variable {σ S : Type} [PrimeSource σ] {generator : Generator (StateM S)}

/-- A class of the metamodel was assembled to an artifact. -/
def AssembledFrom (generator : Generator (StateM S)) (σ : Type) [PrimeSource σ] (c : ClassModel)
    (artifact : JavaClass) : Prop :=
  ∃ primes primes' : σ, assemble generator.model generator.options c primes = (.ok artifact, primes')

/-- What a stage generated was assembled from its classes. -/
theorem StageRuns.exists_assembledFrom {x z : σ × S} {o : StageOutcome}
    (hruns : StageRuns generator x o z) {artifact : JavaClass} (h : artifact ∈ o.artifacts) :
    ∃ c ∈ o.planned, AssembledFrom generator σ c artifact := by
  rcases List.mem_append.mp h with hdone | hhalt
  · obtain ⟨d, hd, rfl⟩ := List.mem_map.mp hdone
    obtain ⟨_, _, hassemble, -⟩ := hruns.generates_of_mem_done hd
    exact ⟨d.subject, List.mem_append_left _ (List.mem_map_of_mem hd), _, _, hassemble⟩
  · obtain ⟨halt, hhalt, hartifact⟩ := List.mem_flatMap.mp hhalt
    obtain ⟨_, _, hfails⟩ := hruns.fails_of_halt (Option.mem_toList.mp hhalt)
    rw [Fails, Option.mem_toList.mp hartifact] at hfails
    refine ⟨halt.subject, List.mem_append_right _ ?_, _, _, hfails.1⟩
    exact List.mem_flatMap.mpr ⟨halt, hhalt, List.mem_cons_self⟩

/-- What a run registers was assembled from classes of the metamodel. -/
theorem exists_assembledFrom_of_run {primes primes' : σ} {s s' : S} {report : Report}
    (h : (generator.run primes).run s = (.ok (report, primes'), s')) {artifact : JavaClass}
    (hartifact : artifact ∈ report.catalogue.registered) :
    ∃ c ∈ generator.model.classes, AssembledFrom generator σ c artifact := by
  obtain ⟨outcomes, hplan, hruns, rfl⟩ := exists_outcomes_of_run h
  obtain ⟨-, hordered⟩ := plan_spec hplan
  have hmem : artifact ∈ outcomes.flatMap (·.artifacts) := by
    rwa [Report.registered_afterAll_empty] at hartifact
  obtain ⟨o, ho, hmem⟩ := List.mem_flatMap.mp hmem
  obtain ⟨_, _, hstage⟩ := hruns.exists_of_mem ho
  obtain ⟨c, hc, hassembled⟩ := hstage.exists_assembledFrom hmem
  have hclasses := (orderClasses_perm (hordered o.plan (List.mem_map_of_mem ho))).mem_iff.mp hc
  exact ⟨c, Stage.mem_model_of_mem_classes hclasses, hassembled⟩

/-- What was assembled from a class of the metamodel declares its attributes and no others, with their types. -/
theorem AssembledFrom.fields {c : ClassModel} {artifact : JavaClass}
    (h : AssembledFrom generator σ c artifact) :
    (∀ f ∈ artifact.fields, ∃ a ∈ c.attributes, f.name = a.name)
      ∧ ∀ a ∈ c.attributes, ∃ f ∈ artifact.fields, f.name = a.name ∧ f.type = a.dataType := by
  obtain ⟨_, _, hassemble⟩ := h
  obtain ⟨parts, _, -, hfinish⟩ := exists_parts_of_assemble_eq_ok hassemble
  obtain ⟨_, _, -, -, rfl⟩ := Draft.exists_methods_of_finish hfinish
  exact ⟨fun _ hf => parts.exists_attribute hf, fun _ ha => parts.exists_field ha⟩

theorem AssembledFrom.generatedFrom {c : ClassModel} {artifact : JavaClass}
    (h : AssembledFrom generator σ c artifact) : GeneratedFrom generator.model c artifact := by
  obtain ⟨_, _, hassemble⟩ := h
  exact assemble_identity hassemble

/-- Classes that are assembled from a metamodel whose names are all different fit together. -/
theorem AssembledFrom.coherent (hdistinct : (generator.model.classes.map (·.name)).Nodup)
    {registered : List JavaClass}
    (hregistered : ∀ artifact ∈ registered,
      ∃ c ∈ generator.model.classes, AssembledFrom generator σ c artifact)
    {c : ClassModel} {artifact : JavaClass} (h : AssembledFrom generator σ c artifact) :
    Coherent generator.model registered c artifact := by
  obtain ⟨_, _, hassemble⟩ := h
  obtain ⟨parts, pair, -, hfinish⟩ := exists_parts_of_assemble_eq_ok hassemble
  obtain ⟨_, _, -, -, rfl⟩ := Draft.exists_methods_of_finish hfinish
  -- The name of a registered class tells which ancestor it was assembled from.
  have hancestor : ∀ a, Relation.TransGen generator.model.Extends c a →
      ∀ other ∈ registered, other.name = a.name → AssembledFrom generator σ a other := by
    intro a ha other hother hname
    obtain ⟨d, hd, hassembled⟩ := hregistered other hother
    have hda : d.name = a.name := hassembled.generatedFrom.2.1.symm.trans hname
    exact eq_of_name_eq hdistinct hd (Metamodel.mem_classes_of_transGen ha) hda ▸ hassembled
  have hconstructors := parts.isConstructor_constructors
  constructor
  · intro p hp parent hparent hname
    rw [(hancestor p (.single hp) parent hparent hname).generatedFrom.2.2]
    exact parts.superclass_of_extends hp
  · intro a ha ancestor hmem hname f hf g hg
    obtain ⟨b, hb, hfb⟩ := parts.exists_attribute hf
    obtain ⟨d, hd, hgd⟩ := (hancestor a ha ancestor hmem hname).fields.1 g hg
    rw [hfb, hgd]
    exact parts.name_ne_of_ancestor hb ha hd
  · intro k hk f hf
    obtain ⟨hfield, hinherited⟩ := (hconstructors k hk).inherited f hf
    obtain ⟨owner, howner, hname, a, ha, haname, hatype⟩ := hfield.exists_owner hinherited
    refine ⟨owner, howner, hname, fun ancestor hmem hancestorName => ?_⟩
    obtain ⟨g, hg, hgname, hgtype⟩ :=
      (hancestor owner howner ancestor hmem hancestorName).fields.2 a ha
    exact ⟨g, hg, hgname.trans haname, hgtype.trans hatype⟩
  · intro k hk f hf
    obtain ⟨hfield, hdeclared⟩ := (hconstructors k hk).own f hf
    exact parts.mem_fields_of_declared hfield hdeclared

/-- **Generated classes fit together.** In a metamodel whose class names are all different, whatever the options, the
primes and the writer: when a run returns a report, each registered class was generated from a class of the metamodel,
and fits the other registered classes. -/
theorem registered_classes_cohere (hdistinct : (generator.model.classes.map (·.name)).Nodup)
    {primes primes' : σ} {s s' : S} {report : Report}
    (h : (generator.run primes).run s = (.ok (report, primes'), s')) :
    ∀ artifact ∈ report.catalogue.registered, ∃ c ∈ generator.model.classes,
      GeneratedFrom generator.model c artifact
        ∧ Coherent generator.model report.catalogue.registered c artifact := by
  have hregistered : ∀ artifact ∈ report.catalogue.registered, ∃ c ∈ generator.model.classes,
      AssembledFrom generator σ c artifact := fun _ => exists_assembledFrom_of_run h
  intro artifact hartifact
  obtain ⟨c, hc, hassembled⟩ := hregistered artifact hartifact
  exact ⟨c, hc, hassembled.generatedFrom, hassembled.coherent hdistinct hregistered⟩

end Run

/-- An entity that passes the key of its superclass on, which is declared after it and lies in a package of its own. -/
def accounts : Metamodel :=
  { Metamodel.empty "shop" with
    classes :=
      [{ ClassModel.empty "User" .entity with
          superclass := some "Base"
          attributes := [.plain "email" "String"]
          constructors := [.of ["email", "id"]] },
        { ClassModel.empty "Base" .mappedSuperclass with
          package := some "core"
          attributes := [.plain "id" "Long"] }] }

/-- The entity extends the other class in its package and takes the key as the first parameter. -/
theorem registered_classes_cohere_accounts :
    (accounts.classes.map (·.name)).Nodup
      ∧ ∃ report primes sources,
        runInMemory accounts .standard (PrimeSupply.fixed .standard)
          = (.ok (report, primes), sources)
        ∧ report.catalogue.registered.map (fun artifact =>
            (artifact.qualifiedName, artifact.superclass, artifact.constructors.map (·.parameterTypes)))
          = [("core.Base", none, []), ("shop.User", some "core.Base", [["Long", "String"]])]
        ∧ ∀ artifact ∈ report.catalogue.registered, ∃ c ∈ accounts.classes,
          GeneratedFrom accounts c artifact ∧ Coherent accounts report.catalogue.registered c artifact := by
  have hdistinct : (accounts.classes.map (·.name)).Nodup := by decide
  have hsummary : (runInMemory accounts .standard (PrimeSupply.fixed .standard)).1.toOption.map
      (fun r => r.1.catalogue.registered.map fun artifact =>
        (artifact.qualifiedName, artifact.superclass, artifact.constructors.map (·.parameterTypes)))
      = some [("core.Base", none, []), ("shop.User", some "core.Base", [["Long", "String"]])] := by
    decide +kernel
  rcases hrun : runInMemory accounts .standard (PrimeSupply.fixed .standard) with ⟨result, sources⟩
  rw [hrun, Option.map_eq_some_iff] at hsummary
  obtain ⟨⟨report, primes⟩, hresult, hsummary⟩ := hsummary
  obtain rfl := toOption_eq_some_iff.mp hresult
  let generator : Generator (StateM Sources) := { model := accounts, options := .standard, write := Sources.writer }
  exact ⟨hdistinct, report, primes, sources, rfl, hsummary,
    @registered_classes_cohere _ _ _ generator hdistinct _ _ _ _ _ hrun⟩

end EntityForge
