import EntityForge.Proofs.ConstructorReading
import EntityForge.Proofs.Lineage
import EntityForge.Proofs.MemoFreeAssembly

/-!
# The constructors that a class declares

When the constructors of a class are built, and what they are. The names that a constructor lists are told apart by
whether the class itself declares them (`assigned`) or not (`passedOn`), in both groups in the order of the list. The
types of the parameters in the order of the groups have to differ from constructor to constructor, so that two lists can
clash without looking alike.

Main statement: `constructors_follow_their_lists`.
-/

namespace EntityForge

open Java

/-! ## Names of parameters -/

namespace Signature

/-- Nothing is wrong with names that are identifiers, differ from each other and did not come up before. -/
theorem nameFault?_eq_none_iff {seen : List String} {ps : List Parameter} :
    nameFault? seen ps = none
      ↔ (∀ p ∈ ps, isIdentifier p.name = true) ∧ (ps.map (·.name)).Nodup ∧ ∀ p ∈ ps, p.name ∉ seen := by
  induction ps generalizing seen with
  | nil => simp [nameFault?]
  | cons p rest ih =>
    unfold nameFault?
    by_cases hidentifier : isIdentifier p.name = true
    · by_cases hseen : p.name ∈ seen
      · simp [hidentifier, hseen]
      · have hlater : (∀ q ∈ rest, q.name ∉ p.name :: seen)
            ↔ p.name ∉ rest.map (·.name) ∧ ∀ q ∈ rest, q.name ∉ seen := by
          simp only [List.mem_cons, not_or, List.mem_map, not_exists, not_and, forall_and]
        rw [if_neg (by simpa using hidentifier), if_neg (by simpa using hseen), ih, hlater, List.forall_mem_cons,
          List.forall_mem_cons, List.map_cons, List.nodup_cons]
        tauto
    · simp [hidentifier]

theorem fault?_eq_none_iff {s : Signature} :
    s.fault? = none ↔ (∀ p ∈ s.parameters, isIdentifier p.name = true) ∧ (s.parameters.map (·.name)).Nodup := by
  simp [fault?, nameFault?_eq_none_iff]

end Signature

namespace Workplace

variable {w : Workplace} {memo memo' : FieldMemo} {names : List String} {name : String} {access : Access}
  {f : JavaField} {k : JavaConstructor}

/-! ## What a list of names asks for -/

/-- The names in a list that the class does not declare itself. -/
def passedOn (w : Workplace) (names : List String) : List String :=
  names.filter fun name => ¬ w.subject.Declares name

/-- The names in a list that the class declares itself. -/
def assigned (w : Workplace) (names : List String) : List String :=
  names.filter fun name => w.subject.Declares name

/-- The type of the attribute that a name stands for in the class. -/
def typeOf? (w : Workplace) (name : String) : Option String :=
  (w.model.resolve w.subject name).toOption.map (·.declared.dataType)

/-- The types of the parameters that a list of names asks for, in the order in which they are declared. -/
def parameterTypes (w : Workplace) (names : List String) : List (Option String) :=
  (w.passedOn names ++ w.assigned names).map w.typeOf?

/-- The class can have a constructor over names that stand for attributes, are identifiers, and are listed once. -/
structure Constructible (w : Workplace) (names : List String) : Prop where
  resolves : ∀ name ∈ names, ∃ r, w.model.resolve w.subject name = .ok r
  identifiers : ∀ name ∈ names, isIdentifier name = true
  once : names.Nodup

/-- A parameter for a name has the name, and the type of the attribute that the name stands for. -/
def IsParameter (w : Workplace) (name : String) (p : Parameter) : Prop :=
  p.name = name ∧ w.typeOf? name = some p.type

/-- A field for a name has the name, and the type of the attribute that the name stands for. -/
def IsFieldFor (w : Workplace) (name : String) (f : JavaField) : Prop :=
  f.name = name ∧ w.typeOf? name = some f.type

/-- The constructor is what its model asks for, and so is its text: it declares all parameters, passes on those that the
class does not declare in one statement, if there are any, and assigns each other one to the field of its name. -/
structure Writes (w : Workplace) (m : ConstructorModel) (k : JavaConstructor) : Prop where
  access : k.access = m.access
  inherited : List.Forall₂ w.IsFieldFor (w.passedOn m.attributes) k.inherited
  own : List.Forall₂ w.IsFieldFor (w.assigned m.attributes) k.own
  text : ∃ parameters : List Parameter,
    List.Forall₂ w.IsParameter (w.passedOn m.attributes ++ w.assigned m.attributes) parameters
    ∧ ConstructorReading.ofText? (k.signature w.subject.name).text
      = some
        { heading := ConstructorReading.headingOf m.access w.subject.name parameters
          statements := ConstructorReading.statementsOf (w.passedOn m.attributes) (w.assigned m.attributes) }

/-- The memos that the workplace comes to once the fields of the class are built: the one that is left then, and those
after any fields that are asked for later. -/
inductive Reached (w : Workplace) : FieldMemo → Prop
  | own {fs : List JavaField} {memo : FieldMemo}
      (h : w.fields [] (w.subject.attributes.map (·.name)) = .ok (fs, memo)) : w.Reached memo
  | next {memo memo' : FieldMemo} {name : String} {f : JavaField} (hreached : w.Reached memo)
      (h : w.field memo name = .ok (f, memo')) : w.Reached memo'

/-! ## Fields -/

theorem Reached.remembers (h : w.Reached memo) : w.Remembers memo := by
  induction h with
  | own h => exact (remembers_nil.fields h).2
  | next _ h ih => exact (ih.field h).2

theorem Reached.members (h : w.Reached memo) {seen : List String} {ms : List Member}
    (hmembers : w.members memo seen names = .ok (ms, memo')) : w.Reached memo' := by
  induction names generalizing memo seen ms with
  | nil =>
    cases hmembers
    exact h
  | cons name names ih =>
    unfold Workplace.members at hmembers
    split at hmembers
    · exact absurd hmembers (by simp)
    · obtain ⟨⟨f, m₁⟩, hfield, hmembers⟩ := bind_eq_ok_iff.mp hmembers
      obtain ⟨⟨rest, m₂⟩, hrest, hmembers⟩ := bind_eq_ok_iff.mp hmembers
      cases hmembers
      exact ih (.next h hfield) hrest

theorem Reached.methodInput (h : w.Reached memo) {method : MethodModel} {input : MethodInput}
    (hinput : w.methodInput memo names method = .ok (input, memo')) : w.Reached memo' := by
  obtain ⟨⟨ms, m₁⟩, hmembers, hinput⟩ := bind_eq_ok_iff.mp hinput
  cases hinput
  exact h.members hmembers

/-- The memo that the constructors of an assembled class are built with is reached. -/
theorem reached_printingMemo (parts : Draft.Parts w) : w.Reached parts.printingMemo :=
  (((Reached.own parts.fields_eq).methodInput parts.equality_eq).methodInput parts.hashing_eq).methodInput
    parts.printing_eq

/-- Once the fields of the class are built, each name that it declares has one. -/
theorem Reached.exists_fieldAnew (h : w.Reached memo) (hdeclares : w.subject.Declares name) :
    ∃ f, w.fieldAnew name = .ok f := by
  induction h with
  | own h =>
    obtain ⟨a, ha, rfl⟩ := hdeclares
    obtain ⟨f, -, hf⟩ := exists_mem_right_of_forall₂ (remembers_nil.fields h).1 (List.mem_map_of_mem ha)
    exact ⟨f, hf⟩
  | next _ _ ih => exact ih

/-- The field of a name has its type, and is declared by the class exactly when the name is. -/
theorem isFieldFor_of_fieldAnew_eq_ok (h : w.fieldAnew name = .ok f) :
    w.IsFieldFor name f ∧ (f.declared = true ↔ w.subject.Declares name) := by
  unfold fieldAnew JavaField.ofName at h
  obtain ⟨r, hresolve, h⟩ := bind_eq_ok_iff.mp h
  replace hresolve := mapError_eq_ok_iff.mp hresolve
  have hname : r.declared.name = name := (Metamodel.resolve_spec hresolve).2.1
  have htype : w.typeOf? name = some r.declared.dataType := by
    rw [typeOf?, hresolve]
    rfl
  have howned := Metamodel.isOwnedBy_iff hresolve
  split at h
  · next hown =>
    have hattribute := mapError_eq_ok_iff.mp h
    obtain ⟨hfname, hftype, -⟩ := JavaField.eq_of_ofAttribute_eq_ok hattribute
    exact ⟨⟨hfname.trans hname, by rw [htype, hftype]⟩,
      iff_of_true (JavaField.declared_of_ofAttribute_eq_ok hattribute) (howned.mp hown)⟩
  · next hother =>
    rw [← Except.ok.inj h]
    exact ⟨⟨hname, htype⟩, iff_of_false (by simp) fun hdeclares => hother (howned.mpr hdeclares)⟩

/-- A name has a field exactly when it stands for an attribute: nothing can be wrong with a field of another class, and
those of the class itself are built already. -/
theorem Reached.exists_fieldAnew_eq_ok_iff (h : w.Reached memo) :
    (∃ f, w.fieldAnew name = .ok f) ↔ ∃ r, w.model.resolve w.subject name = .ok r := by
  constructor
  · rintro ⟨f, hf⟩
    obtain ⟨r, hresolve, -⟩ := JavaField.exists_resolved hf
    exact ⟨r, hresolve⟩
  · rintro ⟨r, hresolve⟩
    by_cases hdeclares : w.subject.Declares name
    · exact h.exists_fieldAnew hdeclares
    · -- The field of another class is taken as it is, without annotations that something could be wrong with.
      have hother : ¬ r.isOwnedBy w.subject = true := mt (Metamodel.isOwnedBy_iff hresolve).mp hdeclares
      rw [fieldAnew, JavaField.ofName, hresolve]
      exact ⟨_, if_neg hother⟩

/-! ## One constructor -/

/-- The constructor over fields, those of other classes first. -/
def constructorOver (access : Access) (fs : List JavaField) : JavaConstructor :=
  { access, inherited := fs.filter (!·.declared), own := fs.filter (·.declared) }

theorem constructorAnew_eq_ok_iff :
    w.constructorAnew names access = .ok k
      ↔ ∃ fs, names.mapM w.fieldAnew = .ok fs ∧ k = constructorOver access fs
        ∧ (k.signature w.subject.name).fault? = none := by
  rw [constructorAnew, bind_eq_ok_iff]
  refine exists_congr fun fs => and_congr_right fun _ => ?_
  simp only
  split
  · next fault hfault =>
    refine iff_of_false (by simp) ?_
    rintro ⟨rfl, hnone⟩
    exact absurd (hfault.symm.trans hnone) (by simp)
  · next hnone =>
    rw [Except.ok.injEq]
    constructor
    · rintro rfl
      exact ⟨rfl, hnone⟩
    · exact fun h => h.1.symm

/-- The two groups hold the names of the list. -/
theorem passedOn_append_assigned_perm (w : Workplace) (names : List String) :
    (w.passedOn names ++ w.assigned names).Perm names := by
  refine List.perm_append_comm.trans ?_
  simpa [passedOn, assigned] using List.filter_append_perm (fun name => decide (w.subject.Declares name)) names

/-- The fields for a list of names fall into the same groups as the names. -/
theorem isFieldFor_constructorOver {fs : List JavaField} (h : names.mapM w.fieldAnew = .ok fs) (access : Access) :
    List.Forall₂ w.IsFieldFor (w.passedOn names) (constructorOver access fs).inherited
      ∧ List.Forall₂ w.IsFieldFor (w.assigned names) (constructorOver access fs).own := by
  have hfields : List.Forall₂ (fun name f => w.IsFieldFor name f ∧ (f.declared = true ↔ w.subject.Declares name))
      names fs :=
    (forall₂_of_mapM_eq_ok h).imp fun _ _ hfield => isFieldFor_of_fieldAnew_eq_ok hfield
  constructor
  · refine (List.rel_filter ?_ hfields).imp fun _ _ hfield => hfield.1
    intro name f hfield
    simp [← hfield.2]
  · refine (List.rel_filter ?_ hfields).imp fun _ _ hfield => hfield.1
    intro name f hfield
    simp [← hfield.2]

/-- A constructor over the groups of names declares a parameter for each name, in the order of the groups. -/
theorem isParameter_signature (hinherited : List.Forall₂ w.IsFieldFor (w.passedOn names) k.inherited)
    (hown : List.Forall₂ w.IsFieldFor (w.assigned names) k.own) (className : String) :
    List.Forall₂ w.IsParameter (w.passedOn names ++ w.assigned names) (k.signature className).parameters := by
  apply List.rel_append
  · exact List.forall₂_map_right_iff.mpr hinherited
  · exact List.forall₂_map_right_iff.mpr hown

theorem names_parameters {parameters : List Parameter} (h : List.Forall₂ w.IsParameter names parameters) :
    parameters.map (·.name) = names :=
  (map_eq_of_forall₂ (fun _ _ hparameter => hparameter.1) h).trans (List.map_id' names)

/-- The statements of a constructor over the groups of names pass on the one and assign the other. -/
theorem statements_signature (hinherited : List.Forall₂ w.IsFieldFor (w.passedOn names) k.inherited)
    (hown : List.Forall₂ w.IsFieldFor (w.assigned names) k.own) (className : String) :
    (k.signature className).statements = ConstructorReading.statementsOf (w.passedOn names) (w.assigned names) := by
  have hpassedOn : (k.signature className).inherited.map (·.name) = w.passedOn names :=
    names_parameters (List.forall₂_map_right_iff.mpr hinherited)
  have hassigned : (k.signature className).own.map (·.name) = w.assigned names :=
    names_parameters (List.forall₂_map_right_iff.mpr hown)
  rw [Signature.statements, hpassedOn, hassigned]

theorem fault?_eq_none_iff {s : Signature}
    (h : List.Forall₂ w.IsParameter (w.passedOn names ++ w.assigned names) s.parameters) :
    s.fault? = none ↔ (∀ name ∈ names, isIdentifier name = true) ∧ names.Nodup := by
  have hperm := w.passedOn_append_assigned_perm names
  have hidentifiers : (∀ p ∈ s.parameters, isIdentifier p.name = true)
      ↔ ∀ name ∈ s.parameters.map (·.name), isIdentifier name = true := by
    simp
  rw [Signature.fault?_eq_none_iff, hidentifiers, names_parameters h, hperm.nodup_iff]
  simp only [hperm.mem_iff]

/-- A constructor is built over names exactly when the class can have one over them. -/
theorem Reached.exists_constructorAnew_eq_ok_iff (h : w.Reached memo) :
    (∃ k, w.constructorAnew names access = .ok k) ↔ w.Constructible names := by
  constructor
  · rintro ⟨k, hk⟩
    obtain ⟨fs, hfs, rfl, hfault⟩ := constructorAnew_eq_ok_iff.mp hk
    obtain ⟨hinherited, hown⟩ := isFieldFor_constructorOver hfs access
    obtain ⟨hidentifiers, honce⟩ := (fault?_eq_none_iff (isParameter_signature hinherited hown _)).mp hfault
    refine ⟨fun name hname => ?_, hidentifiers, honce⟩
    obtain ⟨f, -, hf⟩ := exists_mem_right_of_forall₂ (forall₂_of_mapM_eq_ok hfs) hname
    exact h.exists_fieldAnew_eq_ok_iff.mp ⟨f, hf⟩
  · intro hnames
    have hfields : ∀ name ∈ names, ∃ f, w.fieldAnew name = .ok f :=
      fun name hname => h.exists_fieldAnew_eq_ok_iff.mpr (hnames.resolves name hname)
    obtain ⟨fs, hfs⟩ := exists_mapM_eq_ok hfields
    obtain ⟨hinherited, hown⟩ := isFieldFor_constructorOver hfs access
    exact ⟨_, constructorAnew_eq_ok_iff.mpr ⟨fs, hfs, rfl,
      (fault?_eq_none_iff (isParameter_signature hinherited hown _)).mpr ⟨hnames.identifiers, hnames.once⟩⟩⟩

/-- A constructor is what its model asks for. -/
theorem writes_of_constructorAnew_eq_ok {m : ConstructorModel}
    (h : w.constructorAnew m.attributes m.access = .ok k) : w.Writes m k := by
  obtain ⟨fs, hfs, rfl, hfault⟩ := constructorAnew_eq_ok_iff.mp h
  obtain ⟨hinherited, hown⟩ := isFieldFor_constructorOver hfs m.access
  have hparameters := isParameter_signature hinherited hown w.subject.name
  refine ⟨rfl, hinherited, hown, _, hparameters, ?_⟩
  rw [Signature.ofText?_text (Signature.fault?_eq_none_iff.mp hfault).1, statements_signature hinherited hown]
  rfl

/-- The types of the parameters are those that the list asks for. -/
theorem Writes.parameterTypes_eq {m : ConstructorModel} (h : w.Writes m k) :
    k.parameterTypes.map some = w.parameterTypes m.attributes := by
  have hfields := List.rel_append h.inherited h.own
  rw [JavaConstructor.parameterTypes, Workplace.parameterTypes, List.map_map]
  exact map_eq_of_forall₂ (fun _ _ hfield => hfield.2.symm) hfields

/-! ## All constructors -/

variable {built ks : List JavaConstructor} {m : ConstructorModel} {models : List ConstructorModel}

/-- The constructors of a list are one whose types are new, and those of the rest. -/
theorem constructorsAnew_cons_eq_ok_iff :
    w.constructorsAnew built (m :: models) = .ok ks
      ↔ ∃ k others, w.constructorAnew m.attributes m.access = .ok k
        ∧ (∀ other ∈ built, other.parameterTypes ≠ k.parameterTypes)
        ∧ w.constructorsAnew (built ++ [k]) models = .ok others ∧ ks = k :: others := by
  rw [constructorsAnew, bind_eq_ok_iff]
  constructor
  · rintro ⟨k, hk, h⟩
    split at h
    · exact absurd h (by simp)
    · next hfresh =>
      obtain ⟨others, hothers, h⟩ := bind_eq_ok_iff.mp h
      exact ⟨k, others, hk, by simpa using hfresh, hothers, (Except.ok.inj h).symm⟩
  · rintro ⟨k, others, hk, hfresh, hothers, rfl⟩
    refine ⟨k, hk, ?_⟩
    rw [if_neg (by simpa using hfresh), hothers]
    rfl

/-- Each constructor of a list is what its model asks for. -/
theorem writes_of_constructorsAnew_eq_ok (h : w.constructorsAnew built models = .ok ks) :
    List.Forall₂ w.Writes models ks := by
  induction models generalizing built ks with
  | nil =>
    cases h
    exact .nil
  | cons m rest ih =>
    obtain ⟨k, others, hk, -, hothers, rfl⟩ := constructorsAnew_cons_eq_ok_iff.mp h
    exact .cons (writes_of_constructorAnew_eq_ok hk) (ih hothers)

/-- Constructors can be built over lists exactly when one can be built over each, and the types that a list asks for are
those of no other list and of no constructor before. -/
theorem Reached.exists_constructorsAnew_eq_ok_iff (h : w.Reached memo) (built : List JavaConstructor)
    (models : List ConstructorModel) :
    (∃ ks, w.constructorsAnew built models = .ok ks)
      ↔ (∀ m ∈ models, w.Constructible m.attributes)
        ∧ models.Pairwise (fun m n => w.parameterTypes m.attributes ≠ w.parameterTypes n.attributes)
        ∧ ∀ m ∈ models, ∀ k ∈ built, k.parameterTypes.map some ≠ w.parameterTypes m.attributes := by
  have hinjective : Function.Injective (List.map (some : String → Option String)) :=
    List.map_injective_iff.mpr fun _ _ => Option.some.inj
  -- The first constructor joins those that were built before, and so its types are ruled out for the rest.
  induction models generalizing built with
  | nil => simp [constructorsAnew]
  | cons m rest ih =>
    rw [List.forall_mem_cons, List.pairwise_cons, List.forall_mem_cons]
    constructor
    · rintro ⟨ks, hks⟩
      obtain ⟨k, others, hk, hfresh, hothers, -⟩ := constructorsAnew_cons_eq_ok_iff.mp hks
      have htypes := (writes_of_constructorAnew_eq_ok hk).parameterTypes_eq
      obtain ⟨hrest, hdiffer, hbuilt⟩ := (ih _).mp ⟨others, hothers⟩
      refine ⟨⟨h.exists_constructorAnew_eq_ok_iff.mp ⟨k, hk⟩, hrest⟩, ⟨?_, hdiffer⟩, ?_, ?_⟩
      · intro n hn
        rw [← htypes]
        exact hbuilt n hn k (by simp)
      · intro other hother
        rw [← htypes]
        exact hinjective.ne (hfresh other hother)
      · intro n hn other hother
        exact hbuilt n hn other (List.mem_append_left _ hother)
    · rintro ⟨⟨hm, hrest⟩, ⟨hfirst, hdiffer⟩, hfresh, hbuilt⟩
      obtain ⟨k, hk⟩ := h.exists_constructorAnew_eq_ok_iff.mpr hm
      have htypes := (writes_of_constructorAnew_eq_ok hk).parameterTypes_eq
      have hlater : ∀ n ∈ rest, ∀ other ∈ built ++ [k],
          other.parameterTypes.map some ≠ w.parameterTypes n.attributes := by
        intro n hn other hother
        rcases List.mem_append.mp hother with hother | hother
        · exact hbuilt n hn other hother
        · rw [List.mem_singleton.mp hother, htypes]
          exact hfirst n hn
      obtain ⟨others, hothers⟩ := (ih _).mpr ⟨hrest, hdiffer, hlater⟩
      refine ⟨k :: others, constructorsAnew_cons_eq_ok_iff.mpr ⟨k, others, hk, ?_, hothers, rfl⟩⟩
      intro other hother hsame
      exact hfresh other hother (by rw [hsame, htypes])

/-- **Constructors follow the lists they are declared with.** Once the fields of a class are built, its constructors can
be built exactly when each name in the list of an enabled one stands for an attribute, is an identifier and is listed
once there, and no two enabled ones ask for the same types of parameters in the same order. There is then one constructor
for each that is enabled, in their order: its parameters are those names that the class does not declare itself and
after them the others, each group in the order of the list, and its text declares all of them with the types of the
attributes, passes the ones on to the superclass and assigns the others. -/
theorem constructors_follow_their_lists (w : Workplace) (memo : FieldMemo) (h : w.Reached memo) :
    ((∃ ks memo', w.constructors memo [] (w.subject.constructors.filter (·.enabled)) = .ok (ks, memo'))
        ↔ (∀ m ∈ w.subject.constructors.filter (·.enabled), w.Constructible m.attributes)
          ∧ (w.subject.constructors.filter (·.enabled)).Pairwise fun m n =>
            w.parameterTypes m.attributes ≠ w.parameterTypes n.attributes)
      ∧ ∀ ks memo', w.constructors memo [] (w.subject.constructors.filter (·.enabled)) = .ok (ks, memo') →
        List.Forall₂ w.Writes (w.subject.constructors.filter (·.enabled)) ks := by
  have hboth := h.remembers.alike_constructors [] (w.subject.constructors.filter (·.enabled))
  constructor
  · have hanew := h.exists_constructorsAnew_eq_ok_iff [] (w.subject.constructors.filter (·.enabled))
    simp only [List.not_mem_nil, false_implies, implies_true, and_true] at hanew
    rw [← hanew]
    constructor
    · rintro ⟨ks, memo', hks⟩
      obtain ⟨ks', hks', -⟩ := hboth.exists_right hks
      exact ⟨ks', hks'⟩
    · rintro ⟨ks, hks⟩
      obtain ⟨⟨ks', memo'⟩, hks', -⟩ := hboth.exists_left hks
      exact ⟨ks', memo', hks'⟩
  · intro ks memo' hks
    obtain ⟨ks', hks', rfl, -⟩ := hboth.exists_right hks
    exact writes_of_constructorsAnew_eq_ok hks'

/-- A user with two constructors, and one between them that is not enabled and lists a name that stands for nothing. -/
def selectiveSubscriber : ClassModel :=
  { subscriber with
    constructors := [.of ["email", "id"], { ConstructorModel.of ["nowhere"] with enabled := false }, .of ["email"]] }

/-- The two enabled constructors are built, and the key, which is inherited, comes first in the one that has it. -/
theorem constructors_follow_their_lists_selectiveSubscriber :
    ∃ memo ks memo', Reached { model := accounts, options := .standard, subject := selectiveSubscriber } memo
      ∧ constructors { model := accounts, options := .standard, subject := selectiveSubscriber } memo []
          (selectiveSubscriber.constructors.filter (·.enabled)) = .ok (ks, memo')
      ∧ ks.map (fun k => (k.inherited.map (·.name), k.own.map (·.name))) = [(["id"], ["email"]), ([], ["email"])]
      ∧ List.Forall₂ (Writes { model := accounts, options := .standard, subject := selectiveSubscriber })
          [.of ["email", "id"], .of ["email"]] ks := by
  let w : Workplace := { model := accounts, options := .standard, subject := selectiveSubscriber }
  have hsummary : (Draft.ofWorkplace w).toOption.map
      (fun draft => draft.base.constructors.map fun k => (k.inherited.map (·.name), k.own.map (·.name)))
      = some [(["id"], ["email"]), ([], ["email"])] := by
    decide +kernel
  obtain ⟨draft, hdraft, hsummary⟩ := Option.map_eq_some_iff.mp hsummary
  obtain ⟨parts, rfl⟩ := Draft.exists_parts (toOption_eq_some_iff.mp hdraft)
  have hreached := reached_printingMemo parts
  exact ⟨_, _, _, hreached, parts.constructors_eq, hsummary,
    (constructors_follow_their_lists w _ hreached).2 _ _ parts.constructors_eq⟩

end Workplace

end EntityForge
