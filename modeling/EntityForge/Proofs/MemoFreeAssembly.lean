import EntityForge.Proofs.Agreement
import EntityForge.Proofs.Coherence

/-!
# Assembly without a memo

A class is assembled with a memo, which keeps the field of each name from its first use on. Here is the assembly that
keeps nothing and builds the field of a name anew whenever the name comes up (`assembleAnew`). Since the memo only holds
what would be built anew, each step of one assembly comes to the same as that of the other: the same result or the same
fault. So the memo makes no difference to the class, to the fault or to the primes.

Main statement: `field_memo_is_invisible`.
-/

namespace EntityForge

/-! ## Building fields anew -/

namespace Workplace

/-- The field of a name, built anew. -/
def fieldAnew (w : Workplace) (name : String) : Except Fault JavaField :=
  JavaField.ofName w.model w.options w.subject name

/-- The members of names, in order, each from a field built anew; `seen` are the names before them. -/
def membersAnew (w : Workplace) (seen : List String) : List String → Except Fault (List Member)
  | [] => .ok []
  | name :: names =>
    if seen.contains name then .error (.repeatedMember name)
    else do
      let f ← w.fieldAnew name
      let ms ← w.membersAnew (name :: seen) names
      pure ({ name, shape := f.shape } :: ms)

/-- A method over fields built anew, with the code around it. -/
def methodInputAnew (w : Workplace) (names : List String) (method : MethodModel) : Except Fault MethodInput := do
  let members ← w.membersAnew [] names
  pure { members, preCode := method.preCode, postCode := method.postCode }

/-- The constructor over fields built anew, those of ancestors first. -/
def constructorAnew (w : Workplace) (names : List String) (access : Access) : Except Fault JavaConstructor := do
  let fs ← names.mapM w.fieldAnew
  let c : JavaConstructor := { access, inherited := fs.filter (!·.declared), own := fs.filter (·.declared) }
  match (c.signature w.subject.name).fault? with
  | some fault => .error fault
  | none => .ok c

/-- The constructors that the class declares, over fields built anew; `built` are those before them. -/
def constructorsAnew (w : Workplace) (built : List JavaConstructor) :
    List ConstructorModel → Except Fault (List JavaConstructor)
  | [] => .ok []
  | model :: rest => do
    let c ← w.constructorAnew model.attributes model.access
    if built.any fun other => other.parameterTypes == c.parameterTypes then
      .error (.sameParameters model.attributes)
    else
      let cs ← w.constructorsAnew (built ++ [c]) rest
      pure (c :: cs)

/-- The constructors of a composite key, over fields built anew. -/
def identityConstructorsAnew (w : Workplace) (names : List String) : Except Fault (List JavaConstructor) := do
  let empty ← w.constructorAnew [] .publicAccess
  if names.isEmpty then pure [empty]
  else
    let full ← w.constructorAnew names .publicAccess
    pure [empty, full]

/-- The constructors of the class, over fields built anew; `names` are the members of its equality. -/
def allConstructorsAnew (w : Workplace) (names : List String) : Except Fault (List JavaConstructor) :=
  if w.isIdentity then w.identityConstructorsAnew names
  else w.constructorsAnew [] (w.subject.constructors.filter (·.enabled))

end Workplace

/-- The draft of the class at a workplace, where no field is kept for a later use. -/
def Draft.ofWorkplaceAnew (w : Workplace) : Except Fault Draft := do
  let c := w.subject
  if !Java.isIdentifier c.name then .error (.className c.name)
  else
    let ancestors ← (w.model.ancestors c).mapError .lookup
    match attributeFault? ancestors [] c.attributes with
    | some fault => .error fault
    | none =>
      let fields ← (c.attributes.map (·.name)).mapM w.fieldAnew
      let equality ← w.methodInputAnew (w.methodNames c.equalsMethod) c.equalsMethod
      let hashing ← w.methodInputAnew (w.methodNames c.hashCodeMethod) c.hashCodeMethod
      let printing ← w.methodInputAnew (w.methodNames c.toStringMethod) c.toStringMethod
      let constructors ← w.allConstructorsAnew (equality.members.map (·.name))
      let binding ← c.binding.uses (w.visibleNames ancestors)
      let superclass ← w.superclass.mapError .lookup
      let equalsMethod ← equality.equalsBody c.name
      pure
        { base :=
            { kind := c.kind
              package := c.packageOr w.model.package
              name := c.name
              isAbstract := c.isAbstract
              superclass
              interfaces := w.interfaces
              persistence := Persistence.classUses c
              binding
              annotations := .ofAnnotations (c.annotations ++ c.runtimeAnnotations)
              snippets := .ofSnippets (w.model.snippets ++ c.snippets ++ c.runtimeSnippets)
              fields
              constructors
              equalsMethod
              hashCodeMethod := none
              toStringMethod := none
              bindingSupport := w.model.bindingSupport }
          hashing
          printing }

/-- The class of the metamodel as it is generated when no field is kept for a later use, or the first thing that is
wrong with it, and what is left of the primes. -/
def assembleAnew {σ : Type} [PrimeSource σ] (model : Metamodel) (options : GenerationOptions) (c : ClassModel)
    (primes : σ) : Except GenerationError JavaClass × σ :=
  match Draft.ofWorkplaceAnew { model, options, subject := c } with
  | .error fault => (.error (.invalidInput c.name fault), primes)
  | .ok draft =>
    let (pair, primes) := if draft.usesPrimes then PrimeSource.next primes else (.standard, primes)
    ((draft.finish pair).mapError (.invalidInput c.name), primes)

/-! ## Steps with a memo and without -/

namespace Workplace

variable {w : Workplace} {memo : FieldMemo}

/-- A step has come to `a`, and its memo holds nothing but what would be built anew. -/
def CameTo (w : Workplace) {α : Type} (result : α × FieldMemo) (a : α) : Prop :=
  result.1 = a ∧ w.Remembers result.2

/-- The field of a name is the one built anew, and the memo goes on to hold such fields only. -/
theorem Remembers.alike_field (hmemo : w.Remembers memo) (name : String) :
    Alike w.CameTo (w.field memo name) (w.fieldAnew name) := by
  have hmiss : memo.lookup name = none →
      w.field memo name = w.fieldAnew name >>= fun f => pure (f, (name, f) :: memo) := by
    intro hnone
    rw [Workplace.field, hnone]
    rfl
  cases hfound : memo.lookup name with
  | some f =>
    have hbuilt : w.fieldAnew name = .ok f := hmemo name f hfound
    rw [Workplace.field, hfound, hbuilt]
    exact .ok ⟨rfl, hmemo⟩
  | none =>
    cases hbuilt : w.fieldAnew name with
    | error fault =>
      rw [hmiss hfound, hbuilt]
      exact .error fault
    | ok f =>
      have hfield : w.field memo name = .ok (f, (name, f) :: memo) := by
        rw [hmiss hfound, hbuilt]
        rfl
      rw [hfield]
      exact .ok ⟨rfl, (hmemo.field hfield).2⟩

theorem Remembers.alike_fields (hmemo : w.Remembers memo) (names : List String) :
    Alike w.CameTo (w.fields memo names) (names.mapM w.fieldAnew) := by
  induction names generalizing memo with
  | nil => exact .ok ⟨rfl, hmemo⟩
  | cons name names ih =>
    rw [List.mapM_cons]
    refine (hmemo.alike_field name).bind ?_
    rintro ⟨f, memo₁⟩ _ ⟨rfl, hmemo₁⟩
    refine (ih hmemo₁).bind ?_
    rintro ⟨fs, memo₂⟩ _ ⟨rfl, hmemo₂⟩
    exact .ok ⟨rfl, hmemo₂⟩

theorem Remembers.alike_members (hmemo : w.Remembers memo) (seen names : List String) :
    Alike w.CameTo (w.members memo seen names) (w.membersAnew seen names) := by
  induction names generalizing memo seen with
  | nil => exact .ok ⟨rfl, hmemo⟩
  | cons name names ih =>
    unfold Workplace.members membersAnew
    split
    · exact .error _
    · refine (hmemo.alike_field name).bind ?_
      rintro ⟨f, memo₁⟩ _ ⟨rfl, hmemo₁⟩
      refine (ih hmemo₁ (name :: seen)).bind ?_
      rintro ⟨ms, memo₂⟩ _ ⟨rfl, hmemo₂⟩
      exact .ok ⟨rfl, hmemo₂⟩

theorem Remembers.alike_methodInput (hmemo : w.Remembers memo) (names : List String) (method : MethodModel) :
    Alike w.CameTo (w.methodInput memo names method) (w.methodInputAnew names method) := by
  refine (hmemo.alike_members [] names).bind ?_
  rintro ⟨ms, memo₁⟩ _ ⟨rfl, hmemo₁⟩
  exact .ok ⟨rfl, hmemo₁⟩

theorem Remembers.alike_constructor (hmemo : w.Remembers memo) (names : List String) (access : Access) :
    Alike w.CameTo (w.constructor memo names access) (w.constructorAnew names access) := by
  refine (hmemo.alike_fields names).bind ?_
  rintro ⟨fs, memo₁⟩ _ ⟨rfl, hmemo₁⟩
  let k : JavaConstructor := { access, inherited := fs.filter (!·.declared), own := fs.filter (·.declared) }
  cases hfault : (k.signature w.subject.name).fault? with
  | some fault =>
    simp only [k, hfault]
    exact .error fault
  | none =>
    simp only [k, hfault]
    exact .ok ⟨rfl, hmemo₁⟩

theorem Remembers.alike_constructors (hmemo : w.Remembers memo) (built : List JavaConstructor)
    (models : List ConstructorModel) :
    Alike w.CameTo (w.constructors memo built models) (w.constructorsAnew built models) := by
  induction models generalizing memo built with
  | nil => exact .ok ⟨rfl, hmemo⟩
  | cons model rest ih =>
    refine (hmemo.alike_constructor model.attributes model.access).bind ?_
    rintro ⟨c, memo₁⟩ _ ⟨rfl, hmemo₁⟩
    simp only
    split
    · exact .error _
    · refine (ih hmemo₁ (built ++ [c])).bind ?_
      rintro ⟨cs, memo₂⟩ _ ⟨rfl, hmemo₂⟩
      exact .ok ⟨rfl, hmemo₂⟩

theorem Remembers.alike_identityConstructors (hmemo : w.Remembers memo) (names : List String) :
    Alike w.CameTo (w.identityConstructors memo names) (w.identityConstructorsAnew names) := by
  refine (hmemo.alike_constructor [] .publicAccess).bind ?_
  rintro ⟨empty, memo₁⟩ _ ⟨rfl, hmemo₁⟩
  simp only
  split
  · exact .ok ⟨rfl, hmemo₁⟩
  · refine (hmemo₁.alike_constructor names .publicAccess).bind ?_
    rintro ⟨full, memo₂⟩ _ ⟨rfl, hmemo₂⟩
    exact .ok ⟨rfl, hmemo₂⟩

theorem Remembers.alike_allConstructors (hmemo : w.Remembers memo) (names : List String) :
    Alike w.CameTo (w.allConstructors memo names) (w.allConstructorsAnew names) := by
  unfold Workplace.allConstructors allConstructorsAnew
  split
  · exact hmemo.alike_identityConstructors names
  · exact hmemo.alike_constructors [] _

end Workplace

/-- The draft of a class is the same without a memo. -/
theorem Draft.ofWorkplaceAnew_eq (w : Workplace) : ofWorkplaceAnew w = ofWorkplace w := by
  unfold ofWorkplaceAnew ofWorkplace
  simp only
  split
  · rfl
  refine bind_congr fun ancestors => ?_
  cases attributeFault? ancestors [] w.subject.attributes with
  | some fault => rfl
  | none =>
    refine (Workplace.remembers_nil.alike_fields _).bind_eq ?_
    rintro ⟨fields, memo₁⟩ _ ⟨rfl, hmemo₁⟩
    refine (hmemo₁.alike_methodInput _ _).bind_eq ?_
    rintro ⟨equality, memo₂⟩ _ ⟨rfl, hmemo₂⟩
    refine (hmemo₂.alike_methodInput _ _).bind_eq ?_
    rintro ⟨hashing, memo₃⟩ _ ⟨rfl, hmemo₃⟩
    refine (hmemo₃.alike_methodInput _ _).bind_eq ?_
    rintro ⟨printing, memo₄⟩ _ ⟨rfl, hmemo₄⟩
    refine (hmemo₄.alike_allConstructors _).bind_eq ?_
    rintro ⟨constructors, memo₅⟩ _ ⟨rfl, -⟩
    rfl

/-- A class is assembled to the same result without a memo, and the primes that are left are the same. -/
theorem assembleAnew_eq {σ : Type} [PrimeSource σ] (model : Metamodel) (options : GenerationOptions) (c : ClassModel)
    (primes : σ) : assembleAnew model options c primes = assemble model options c primes := by
  unfold assembleAnew assemble
  rewrite [Draft.ofWorkplaceAnew_eq]
  rfl

/-! ## Fields and parameters -/

/-- The fields of an assembled class, and the parameters of its constructors. -/
structure FieldsFit (options : GenerationOptions) (c : ClassModel) (artifact : JavaClass) : Prop where
  /-- The fields are those of the attributes of the class, one by one, and declared by it. -/
  fields : List.Forall₂ (fun a f => JavaField.ofAttribute options c a = .ok f ∧ f.name = a.name ∧ f.declared = true)
    c.attributes artifact.fields
  /-- No two fields have one name. -/
  distinct : (artifact.fields.map (·.name)).Nodup
  /-- A parameter that a constructor assigns is the field of its name. -/
  own : ∀ k ∈ artifact.constructors, ∀ f ∈ k.own, artifact.fields.find? (·.name == f.name) = some f
  /-- A parameter that a constructor passes on has a name of its own. -/
  inherited : ∀ k ∈ artifact.constructors, ∀ f ∈ k.inherited, ∀ g ∈ artifact.fields, f.name ≠ g.name

/-- The fields of a class have different names, like its attributes. -/
theorem Draft.Parts.nodup_names {w : Workplace} (parts : Draft.Parts w) : (parts.fields.map (·.name)).Nodup := by
  have hattributes := (nodup_of_attributeFault?_eq_none parts.attributes_eq).1
  have hsame : w.subject.attributes.map (·.name) = parts.fields.map (·.name) := by
    rw [← List.forall₂_eq_eq_eq, List.forall₂_map_left_iff, List.forall₂_map_right_iff]
    exact parts.ofAttribute_fields.imp fun a f hfield => (JavaField.eq_of_ofAttribute_eq_ok hfield).1.symm
  exact hsame ▸ hattributes

/-- The parts of a draft fit together. -/
theorem Draft.Parts.fieldsFit {w : Workplace} (parts : Draft.Parts w) :
    FieldsFit w.options w.subject parts.draft.base where
  fields := by
    refine parts.ofAttribute_fields.imp fun a f hfield => ?_
    exact ⟨hfield, (JavaField.eq_of_ofAttribute_eq_ok hfield).1, JavaField.declared_of_ofAttribute_eq_ok hfield⟩
  distinct := parts.nodup_names
  own k hk f hf := by
    obtain ⟨hfield, hdeclared⟩ := (parts.isConstructor_constructors k hk).own f hf
    exact (find?_eq_some_iff_of_nodup parts.nodup_names).mpr ⟨parts.mem_fields_of_declared hfield hdeclared, rfl⟩
  inherited k hk f hf g hg := by
    obtain ⟨hfield, hinherited⟩ := (parts.isConstructor_constructors k hk).inherited f hf
    obtain ⟨owner, howner, -, b, hb, hbname, -⟩ := hfield.exists_owner hinherited
    obtain ⟨a, ha, hgname⟩ := parts.exists_attribute hg
    rw [← hbname, hgname]
    exact (parts.name_ne_of_ancestor ha howner hb).symm

/-- **The memo makes no difference.** Whatever the metamodel, the class, the options and the primes: assembly comes to
the same class or the same fault with its memo as without one, and leaves the same primes. The fields of an assembled
class are those of its attributes in their order; the parameters that a constructor assigns are the fields of their
names, and those that it passes on share no name with a field. -/
theorem field_memo_is_invisible {σ : Type} [PrimeSource σ] (model : Metamodel) (options : GenerationOptions)
    (c : ClassModel) (primes : σ) :
    assemble model options c primes = assembleAnew model options c primes
      ∧ ∀ artifact primes', assemble model options c primes = (.ok artifact, primes') →
        FieldsFit options c artifact := by
  refine ⟨(assembleAnew_eq model options c primes).symm, fun artifact primes' h => ?_⟩
  obtain ⟨parts, _, -, hfinish⟩ := exists_parts_of_assemble_eq_ok h
  obtain ⟨_, _, -, -, rfl⟩ := Draft.exists_methods_of_finish hfinish
  have hfit := parts.fieldsFit
  exact ⟨hfit.fields, hfit.distinct, hfit.own, hfit.inherited⟩

/-- A user whose key, which is inherited, and address come up in two constructors and two methods. -/
def subscriber : ClassModel :=
  { ClassModel.empty "Subscriber" .entity with
    superclass := some "Base"
    attributes := [.plain "email" "String"]
    constructors := [.of ["email", "id"], .of ["email"]]
    equalsMethod := .of ["id", "email"]
    hashCodeMethod := .of ["email", "id"] }

/-- The address is the field of the class and a parameter of both constructors; the key is a parameter only. -/
theorem field_memo_is_invisible_subscriber :
    ∃ artifact primes,
      assembleAnew accounts .standard subscriber (PrimeSupply.listed [⟨3, 11⟩]) = (.ok artifact, primes)
        ∧ artifact.fields.map (·.name) = ["email"]
        ∧ artifact.constructors.map (fun k => (k.inherited.map (·.name), k.own.map (·.name)))
          = [(["id"], ["email"]), ([], ["email"])]
        ∧ FieldsFit .standard subscriber artifact := by
  obtain ⟨artifact, primes, hassemble, hsummary⟩ :=
    exists_ok_of_summary (assemble accounts .standard subscriber (PrimeSupply.listed [⟨3, 11⟩]))
      (fun artifact => (artifact.fields.map (·.name),
        artifact.constructors.map fun k => (k.inherited.map (·.name), k.own.map (·.name))))
      (b := (["email"], [(["id"], ["email"]), ([], ["email"])])) (by decide +kernel)
  rw [Prod.mk.injEq] at hsummary
  obtain ⟨hsame, hfit⟩ :=
    field_memo_is_invisible accounts .standard subscriber (PrimeSupply.listed [⟨3, 11⟩])
  exact ⟨artifact, primes, hsame ▸ hassemble, hsummary.1, hsummary.2, hfit artifact primes hassemble⟩

end EntityForge
