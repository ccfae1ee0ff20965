import EntityForge.Proofs.Assembly

/-!
# Fields and the memo

A field is built where its name first comes up and taken from the memo afterwards. Since the memo holds under each name
the field that the name stands for (`Remembers`), every field, every member of a method and every parameter of a
constructor is the one of its name, however often and in whatever order the names come up.
-/

namespace EntityForge

/-! ## Fields by name -/

namespace JavaField

variable {model : Metamodel} {options : GenerationOptions} {c : ClassModel} {name : String}
  {a : Attribute} {f : JavaField}

/-- The field of an attribute is made of its annotations and of what the attribute says itself. -/
theorem exists_uses_of_ofAttribute_eq_ok (h : ofAttribute options c a = .ok f) :
    ∃ persistence constraints keyConstraints valueConstraints,
      Persistence.attributeUses options.generateDefaultValues c.kind a = .ok persistence
      ∧ Constraint.uses options.generateDefaultValues a.constraints = .ok constraints
      ∧ Constraint.uses options.generateDefaultValues a.keyConstraints = .ok keyConstraints
      ∧ Constraint.uses options.generateDefaultValues a.valueConstraints = .ok valueConstraints
      ∧ f =
        { JavaField.plain a.name a.dataType c.name with
          access := a.access
          defaultValue := a.defaultValue
          description := a.description
          persistence
          constraints
          keyConstraints
          valueConstraints
          binding := a.binding.uses
          annotations := .ofAnnotations (a.annotations ++ a.runtimeAnnotations)
          snippets := .ofSnippets (a.snippets ++ a.runtimeSnippets)
          propertyChangeSupport := options.javaSeSupport && a.propertyChangeSupport
          vetoableChangeSupport := options.javaSeSupport && a.vetoableChangeSupport } := by
  unfold ofAttribute at h
  obtain ⟨persistence, hpersistence, h⟩ := bind_eq_ok_iff.mp h
  obtain ⟨constraints, hconstraints, h⟩ := bind_eq_ok_iff.mp h
  obtain ⟨keyConstraints, hkeys, h⟩ := bind_eq_ok_iff.mp h
  obtain ⟨valueConstraints, hvalues, h⟩ := bind_eq_ok_iff.mp h
  simp only at h
  split at h
  · exact absurd h (by simp)
  · split at h
    · exact absurd h (by simp)
    · exact ⟨persistence, constraints, keyConstraints, valueConstraints, hpersistence, hconstraints,
        hkeys, hvalues, (Except.ok.inj h).symm⟩

/-- What the field of an attribute takes over from it: its name, its type, and what is written by hand. -/
theorem eq_of_ofAttribute_eq_ok (h : ofAttribute options c a = .ok f) :
    f.name = a.name ∧ f.type = a.dataType
      ∧ f.annotations = .ofAnnotations (a.annotations ++ a.runtimeAnnotations)
      ∧ f.snippets = .ofSnippets (a.snippets ++ a.runtimeSnippets) := by
  obtain ⟨_, _, _, _, -, -, -, -, rfl⟩ := exists_uses_of_ofAttribute_eq_ok h
  exact ⟨rfl, rfl, rfl, rfl⟩

/-- The class declares the fields of its own attributes. -/
theorem declared_of_ofAttribute_eq_ok (h : ofAttribute options c a = .ok f) : f.declared = true := by
  obtain ⟨_, _, _, _, -, -, -, -, rfl⟩ := exists_uses_of_ofAttribute_eq_ok h
  rfl

/-- A field has the type of the attribute that its name stands for. -/
theorem exists_resolved (h : ofName model options c name = .ok f) :
    ∃ resolved, model.resolve c name = .ok resolved ∧ f.type = resolved.declared.dataType := by
  unfold ofName at h
  obtain ⟨resolved, hresolved, h⟩ := bind_eq_ok_iff.mp h
  refine ⟨resolved, mapError_eq_ok_iff.mp hresolved, ?_⟩
  split at h
  · exact (eq_of_ofAttribute_eq_ok (mapError_eq_ok_iff.mp h)).2.1
  · rw [← Except.ok.inj h]
    rfl

/-- The name of an attribute of the class itself stands for that attribute. -/
theorem ofAttribute_of_ofName (hown : c.attribute? a.name = some a)
    (h : ofName model options c a.name = .ok f) : ofAttribute options c a = .ok f := by
  have hresolve : model.resolve c a.name = .ok { declared := a, owner := c } := by
    rw [Metamodel.resolve, hown]
  have howned : Resolved.isOwnedBy { declared := a, owner := c } c = true :=
    beq_self_eq_true c.name
  unfold ofName at h
  rw [hresolve] at h
  obtain ⟨resolved, hresolved, h⟩ := bind_eq_ok_iff.mp h
  cases mapError_eq_ok_iff.mp hresolved
  rw [if_pos howned] at h
  exact mapError_eq_ok_iff.mp h

end JavaField

/-- Attributes without a fault have different names, none of which came up before. -/
theorem nodup_of_attributeFault?_eq_none {ancestors : List ClassModel} {seen : List String}
    {attributes : List Attribute} (h : attributeFault? ancestors seen attributes = none) :
    (attributes.map (·.name)).Nodup ∧ ∀ a ∈ attributes, a.name ∉ seen := by
  induction attributes generalizing seen with
  | nil => simp
  | cons a rest ih =>
    unfold attributeFault? at h
    split at h
    · exact absurd h (by simp)
    · split at h
      · exact absurd h (by simp)
      · next hfresh =>
        split at h
        · exact absurd h (by simp)
        · obtain ⟨hnodup, hseen⟩ := ih h
          rw [List.map_cons, List.nodup_cons, List.forall_mem_cons]
          refine ⟨⟨?_, hnodup⟩, by simpa using hfresh, ?_⟩
          · intro hmem
            obtain ⟨b, hb, hname⟩ := List.mem_map.mp hmem
            exact hseen b hb (by simp [hname])
          · intro b hb hmem
            exact hseen b hb (List.mem_cons_of_mem _ hmem)

/-- Attributes without a fault have identifiers for names. -/
theorem isIdentifier_of_attributeFault?_eq_none {ancestors : List ClassModel} {seen : List String}
    {attributes : List Attribute} (h : attributeFault? ancestors seen attributes = none) :
    ∀ a ∈ attributes, Java.isIdentifier a.name = true := by
  induction attributes generalizing seen with
  | nil => simp
  | cons a rest ih =>
    unfold attributeFault? at h
    split at h
    · exact absurd h (by simp)
    · next hname =>
      split at h
      · exact absurd h (by simp)
      · split at h
        · exact absurd h (by simp)
        · exact List.forall_mem_cons.mpr ⟨by simpa using hname, ih h⟩

namespace Workplace

variable {w : Workplace} {memo memo' : FieldMemo}

/-- The memo holds under each of its names the field that the name stands for. -/
def Remembers (w : Workplace) (memo : FieldMemo) : Prop :=
  ∀ name f, memo.lookup name = some f → JavaField.ofName w.model w.options w.subject name = .ok f

theorem remembers_nil : w.Remembers [] := by
  intro name f h
  exact absurd h (by simp)

/-- A field is the one that its name stands for, whether the memo had it or not. -/
theorem Remembers.field (hmemo : w.Remembers memo) {name : String} {f : JavaField}
    (h : w.field memo name = .ok (f, memo')) :
    JavaField.ofName w.model w.options w.subject name = .ok f ∧ w.Remembers memo' := by
  unfold Workplace.field at h
  cases hfound : memo.lookup name with
  | some g =>
    rw [hfound] at h
    cases h
    exact ⟨hmemo name f hfound, hmemo⟩
  | none =>
    rw [hfound] at h
    obtain ⟨g, hbuilt, h⟩ := bind_eq_ok_iff.mp h
    cases h
    refine ⟨hbuilt, ?_⟩
    intro other g hother
    by_cases heq : other = name
    · subst heq
      rw [List.lookup_cons_self, Option.some.injEq] at hother
      rw [← hother]
      exact hbuilt
    · have hne : (other == name) = false := by simpa using heq
      rw [List.lookup_cons, hne] at hother
      exact hmemo other g hother

/-- Fields are those that their names stand for. -/
theorem Remembers.fields (hmemo : w.Remembers memo) {names : List String} {fs : List JavaField}
    (h : w.fields memo names = .ok (fs, memo')) :
    List.Forall₂ (fun name f => JavaField.ofName w.model w.options w.subject name = .ok f) names fs
      ∧ w.Remembers memo' := by
  induction names generalizing memo fs with
  | nil =>
    cases h
    exact ⟨.nil, hmemo⟩
  | cons name names ih =>
    obtain ⟨⟨f, m₁⟩, hfield, h⟩ := bind_eq_ok_iff.mp h
    obtain ⟨⟨rest, m₂⟩, hrest, h⟩ := bind_eq_ok_iff.mp h
    cases h
    obtain ⟨hname, hmemo₁⟩ := hmemo.field hfield
    obtain ⟨hnames, hmemo₂⟩ := ih hmemo₁ hrest
    exact ⟨.cons hname hnames, hmemo₂⟩

/-- A member of a method has the name and the shape of an attribute that the class can see. -/
def IsMember (w : Workplace) (name : String) (m : Member) : Prop :=
  m.name = name ∧ ∃ resolved, w.model.resolve w.subject name = .ok resolved
    ∧ m.shape = .ofType resolved.declared.dataType

/-- Members are those of their names. -/
theorem Remembers.members (hmemo : w.Remembers memo) {seen names : List String}
    {ms : List Member} (h : w.members memo seen names = .ok (ms, memo')) :
    List.Forall₂ w.IsMember names ms ∧ w.Remembers memo' := by
  induction names generalizing memo seen ms with
  | nil =>
    cases h
    exact ⟨.nil, hmemo⟩
  | cons name names ih =>
    unfold Workplace.members at h
    split at h
    · exact absurd h (by simp)
    · obtain ⟨⟨f, m₁⟩, hfield, h⟩ := bind_eq_ok_iff.mp h
      obtain ⟨⟨rest, m₂⟩, hrest, h⟩ := bind_eq_ok_iff.mp h
      cases h
      obtain ⟨hname, hmemo₁⟩ := hmemo.field hfield
      obtain ⟨hnames, hmemo₂⟩ := ih hmemo₁ hrest
      obtain ⟨resolved, hresolved, htype⟩ := JavaField.exists_resolved hname
      have hshape : f.shape = .ofType resolved.declared.dataType := by rw [JavaField.shape, htype]
      exact ⟨.cons ⟨rfl, resolved, hresolved, hshape⟩ hnames, hmemo₂⟩

/-- A method is over the members of its names, with the code that the model gives. -/
theorem Remembers.methodInput (hmemo : w.Remembers memo) {names : List String}
    {method : MethodModel} {input : MethodInput}
    (h : w.methodInput memo names method = .ok (input, memo')) :
    List.Forall₂ w.IsMember names input.members ∧ input.preCode = method.preCode
      ∧ input.postCode = method.postCode ∧ w.Remembers memo' := by
  unfold Workplace.methodInput at h
  obtain ⟨⟨ms, m₁⟩, hmembers, h⟩ := bind_eq_ok_iff.mp h
  cases h
  obtain ⟨hnames, hmemo'⟩ := hmemo.members hmembers
  exact ⟨hnames, rfl, rfl, hmemo'⟩

/-! ## Constructors -/

/-- A field is one that some name stands for in the class. -/
def IsField (w : Workplace) (f : JavaField) : Prop :=
  ∃ name, JavaField.ofName w.model w.options w.subject name = .ok f

/-- A constructor takes fields of the class: inherited ones first, and then those that the class declares. -/
structure IsConstructor (w : Workplace) (k : JavaConstructor) : Prop where
  inherited : ∀ f ∈ k.inherited, w.IsField f ∧ f.declared = false
  own : ∀ f ∈ k.own, w.IsField f ∧ f.declared = true

theorem Remembers.constructor (hmemo : w.Remembers memo) {names : List String} {access : Access}
    {k : JavaConstructor} (h : w.constructor memo names access = .ok (k, memo')) :
    w.IsConstructor k ∧ w.Remembers memo' := by
  unfold Workplace.constructor at h
  obtain ⟨⟨fs, m₁⟩, hfields, h⟩ := bind_eq_ok_iff.mp h
  obtain ⟨hnames, hmemo₁⟩ := hmemo.fields hfields
  have hfs : ∀ f ∈ fs, w.IsField f := by
    intro f hf
    obtain ⟨name, -, hname⟩ := exists_mem_right_of_forall₂ hnames.flip hf
    exact ⟨name, hname⟩
  simp only at h
  split at h
  · exact absurd h (by simp)
  · cases h
    refine ⟨⟨?_, ?_⟩, hmemo₁⟩
    · intro f hf
      obtain ⟨hmem, hdeclared⟩ := List.mem_filter.mp hf
      exact ⟨hfs f hmem, by simpa using hdeclared⟩
    · intro f hf
      obtain ⟨hmem, hdeclared⟩ := List.mem_filter.mp hf
      exact ⟨hfs f hmem, hdeclared⟩

theorem Remembers.constructors (hmemo : w.Remembers memo) {built ks : List JavaConstructor}
    {models : List ConstructorModel} (h : w.constructors memo built models = .ok (ks, memo')) :
    ∀ k ∈ ks, w.IsConstructor k := by
  induction models generalizing memo built ks with
  | nil =>
    cases h
    simp
  | cons model rest ih =>
    unfold Workplace.constructors at h
    obtain ⟨⟨k, m₁⟩, hconstructor, h⟩ := bind_eq_ok_iff.mp h
    obtain ⟨hk, hmemo₁⟩ := hmemo.constructor hconstructor
    simp only at h
    split at h
    · exact absurd h (by simp)
    · obtain ⟨⟨others, m₂⟩, hothers, h⟩ := bind_eq_ok_iff.mp h
      cases h
      exact List.forall_mem_cons.mpr ⟨hk, ih hmemo₁ hothers⟩

theorem Remembers.identityConstructors (hmemo : w.Remembers memo) {names : List String}
    {ks : List JavaConstructor} (h : w.identityConstructors memo names = .ok (ks, memo')) :
    ∀ k ∈ ks, w.IsConstructor k := by
  unfold Workplace.identityConstructors at h
  obtain ⟨⟨empty, m₁⟩, hempty, h⟩ := bind_eq_ok_iff.mp h
  obtain ⟨hemptyIs, hmemo₁⟩ := hmemo.constructor hempty
  simp only at h
  split at h
  · cases h
    exact List.forall_mem_singleton.mpr hemptyIs
  · obtain ⟨⟨full, m₂⟩, hfull, h⟩ := bind_eq_ok_iff.mp h
    cases h
    exact List.forall_mem_cons.mpr ⟨hemptyIs,
      List.forall_mem_singleton.mpr (hmemo₁.constructor hfull).1⟩

theorem Remembers.allConstructors (hmemo : w.Remembers memo) {names : List String}
    {ks : List JavaConstructor} (h : w.allConstructors memo names = .ok (ks, memo')) :
    ∀ k ∈ ks, w.IsConstructor k := by
  unfold Workplace.allConstructors at h
  split at h
  · exact hmemo.identityConstructors h
  · exact hmemo.constructors h

end Workplace

namespace Draft.Parts

variable {w : Workplace} (parts : Draft.Parts w)

/-- The own fields are those that the names of the attributes stand for. -/
theorem ofName_fields :
    List.Forall₂ (fun name f => JavaField.ofName w.model w.options w.subject name = .ok f)
      (w.subject.attributes.map (·.name)) parts.fields :=
  (Workplace.remembers_nil.fields parts.fields_eq).1

/-- The fields are those of the attributes of the class, in their order. -/
theorem ofAttribute_fields :
    List.Forall₂ (fun a f => JavaField.ofAttribute w.options w.subject a = .ok f)
      w.subject.attributes parts.fields := by
  have hnodup := (nodup_of_attributeFault?_eq_none parts.attributes_eq).1
  have hown : ∀ a ∈ w.subject.attributes, w.subject.attribute? a.name = some a := by
    intro a ha
    exact (find?_eq_some_iff_of_nodup hnodup).mpr ⟨ha, rfl⟩
  have hfields := List.forall₂_map_left_iff.mp parts.ofName_fields
  refine ((List.forall₂_and_left _ _).mpr ⟨hown, hfields⟩).imp ?_
  rintro a f ⟨hattribute, hname⟩
  exact JavaField.ofAttribute_of_ofName hattribute hname

theorem remembers_fieldMemo : w.Remembers parts.fieldMemo :=
  (Workplace.remembers_nil.fields parts.fields_eq).2

theorem remembers_equalityMemo : w.Remembers parts.equalityMemo :=
  (parts.remembers_fieldMemo.methodInput parts.equality_eq).2.2.2

theorem remembers_hashingMemo : w.Remembers parts.hashingMemo :=
  (parts.remembers_equalityMemo.methodInput parts.hashing_eq).2.2.2

theorem remembers_printingMemo : w.Remembers parts.printingMemo :=
  (parts.remembers_hashingMemo.methodInput parts.printing_eq).2.2.2

/-- The constructors take fields of the class. -/
theorem isConstructor_constructors : ∀ k ∈ parts.constructors, w.IsConstructor k :=
  parts.remembers_printingMemo.allConstructors parts.constructors_eq

end Draft.Parts

end EntityForge
