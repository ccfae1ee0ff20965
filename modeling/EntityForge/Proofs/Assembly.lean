import EntityForge.JavaClass.Assembly
import EntityForge.Proofs.Traversal

/-!
# What an assembled class is made of

The steps that a successful assembly went through, with the result of each (`Draft.Parts`), and what the assembled class
takes over from its draft.
-/

namespace EntityForge

/-- The results of the steps by which the class at a workplace is drafted. -/
structure Draft.Parts (w : Workplace) where
  ancestors : List ClassModel
  fields : List JavaField
  equality : MethodInput
  hashing : MethodInput
  printing : MethodInput
  constructors : List JavaConstructor
  binding : List Java.AnnotationUse
  superclass : Option String
  equalsMethod : Option (List Java.Statement)
  /-- The fields that are known after the own fields, and after the members of each method. -/
  fieldMemo : FieldMemo
  equalityMemo : FieldMemo
  hashingMemo : FieldMemo
  printingMemo : FieldMemo
  finalMemo : FieldMemo
  className : Java.isIdentifier w.subject.name = true
  ancestors_eq : w.model.ancestors w.subject = .ok ancestors
  attributes_eq : attributeFault? ancestors [] w.subject.attributes = none
  fields_eq : w.fields [] (w.subject.attributes.map (·.name)) = .ok (fields, fieldMemo)
  equality_eq : w.methodInput fieldMemo (w.methodNames w.subject.equalsMethod) w.subject.equalsMethod
    = .ok (equality, equalityMemo)
  hashing_eq : w.methodInput equalityMemo (w.methodNames w.subject.hashCodeMethod)
    w.subject.hashCodeMethod = .ok (hashing, hashingMemo)
  printing_eq : w.methodInput hashingMemo (w.methodNames w.subject.toStringMethod)
    w.subject.toStringMethod = .ok (printing, printingMemo)
  constructors_eq : w.allConstructors printingMemo (equality.members.map (·.name))
    = .ok (constructors, finalMemo)
  binding_eq : w.subject.binding.uses (w.visibleNames ancestors) = .ok binding
  superclass_eq : w.superclass = .ok superclass
  equalsMethod_eq : equality.equalsBody w.subject.name = .ok equalsMethod

namespace Draft

/-- The draft that is made of the results of the steps. -/
def Parts.draft {w : Workplace} (parts : Parts w) : Draft :=
  { base :=
      { kind := w.subject.kind
        package := w.subject.packageOr w.model.package
        name := w.subject.name
        isAbstract := w.subject.isAbstract
        superclass := parts.superclass
        interfaces := w.interfaces
        persistence := Persistence.classUses w.subject
        binding := parts.binding
        annotations := .ofAnnotations (w.subject.annotations ++ w.subject.runtimeAnnotations)
        snippets :=
          .ofSnippets (w.model.snippets ++ w.subject.snippets ++ w.subject.runtimeSnippets)
        fields := parts.fields
        constructors := parts.constructors
        equalsMethod := parts.equalsMethod
        hashCodeMethod := none
        toStringMethod := none
        bindingSupport := w.model.bindingSupport }
    hashing := parts.hashing
    printing := parts.printing }

/-- A draft is made of the results of all its steps. -/
theorem exists_parts {w : Workplace} {draft : Draft} (h : ofWorkplace w = .ok draft) :
    ∃ parts : Parts w, parts.draft = draft := by
  unfold ofWorkplace at h
  simp only at h
  split at h
  · exact absurd h (by simp)
  · next hname =>
    obtain ⟨ancestors, hancestors, h⟩ := bind_eq_ok_iff.mp h
    split at h
    · exact absurd h (by simp)
    · next hattributes =>
      obtain ⟨⟨fields, m₁⟩, hfields, h⟩ := bind_eq_ok_iff.mp h
      obtain ⟨⟨equality, m₂⟩, hequality, h⟩ := bind_eq_ok_iff.mp h
      obtain ⟨⟨hashing, m₃⟩, hhashing, h⟩ := bind_eq_ok_iff.mp h
      obtain ⟨⟨printing, m₄⟩, hprinting, h⟩ := bind_eq_ok_iff.mp h
      obtain ⟨⟨constructors, m₅⟩, hconstructors, h⟩ := bind_eq_ok_iff.mp h
      obtain ⟨binding, hbinding, h⟩ := bind_eq_ok_iff.mp h
      obtain ⟨superclass, hsuperclass, h⟩ := bind_eq_ok_iff.mp h
      obtain ⟨equalsMethod, hequals, h⟩ := bind_eq_ok_iff.mp h
      exact ⟨{
        ancestors, fields, equality, hashing, printing, constructors, binding, superclass, equalsMethod
        fieldMemo := m₁, equalityMemo := m₂, hashingMemo := m₃, printingMemo := m₄, finalMemo := m₅
        className := by simpa using hname
        ancestors_eq := mapError_eq_ok_iff.mp hancestors
        attributes_eq := hattributes
        fields_eq := hfields
        equality_eq := hequality
        hashing_eq := hhashing
        printing_eq := hprinting
        constructors_eq := hconstructors
        binding_eq := hbinding
        superclass_eq := mapError_eq_ok_iff.mp hsuperclass
        equalsMethod_eq := hequals }, Except.ok.inj h⟩

/-- Finishing a draft adds the hash code and the text, and nothing else. -/
theorem exists_methods_of_finish {draft : Draft} {pair : PrimePair} {c : JavaClass}
    (h : draft.finish pair = .ok c) :
    ∃ hashCodeMethod toStringMethod,
      draft.hashing.hashCodeBody draft.base.name pair = .ok hashCodeMethod
      ∧ draft.printing.toStringBody draft.base.name = .ok toStringMethod
      ∧ c = { draft.base with hashCodeMethod, toStringMethod } := by
  obtain ⟨hashCodeMethod, hhash, h⟩ := bind_eq_ok_iff.mp h
  obtain ⟨toStringMethod, hprint, h⟩ := bind_eq_ok_iff.mp h
  exact ⟨hashCodeMethod, toStringMethod, hhash, hprint, (Except.ok.inj h).symm⟩

end Draft

variable {σ : Type} [PrimeSource σ] {model : Metamodel} {options : GenerationOptions}
  {c : ClassModel} {primes primes' : σ}

/-- An assembled class is the finished draft of its parts. -/
theorem exists_parts_of_assemble_eq_ok {artifact : JavaClass}
    (h : assemble model options c primes = (.ok artifact, primes')) :
    ∃ (parts : Draft.Parts { model, options, subject := c }) (pair : PrimePair),
      (pair, primes') = (if parts.draft.usesPrimes then PrimeSource.next primes else (.standard, primes))
      ∧ parts.draft.finish pair = .ok artifact := by
  unfold assemble at h
  split at h
  · exact absurd (congrArg Prod.fst h) (by simp)
  · next draft hdraft =>
    obtain ⟨parts, rfl⟩ := Draft.exists_parts hdraft
    rw [Prod.mk.injEq] at h
    exact ⟨parts, _, Prod.ext rfl h.2.symm, mapError_eq_ok_iff.mp h.1⟩

/-- An assembled class has the kind, the name and the package of the class that it is assembled from. -/
theorem assemble_identity {artifact : JavaClass}
    (h : assemble model options c primes = (.ok artifact, primes')) :
    artifact.kind = c.kind ∧ artifact.name = c.name
      ∧ artifact.qualifiedName = c.qualifiedName model.package := by
  obtain ⟨parts, pair, -, hfinish⟩ := exists_parts_of_assemble_eq_ok h
  obtain ⟨_, _, -, -, rfl⟩ := Draft.exists_methods_of_finish hfinish
  exact ⟨rfl, rfl, rfl⟩

/-- A class that cannot be assembled is named by the error. -/
theorem exists_fault_of_assemble_eq_error {error : GenerationError}
    (h : assemble model options c primes = (.error error, primes')) :
    ∃ fault, error = .invalidInput c.name fault := by
  unfold assemble at h
  split at h
  · next fault _ =>
    rw [Prod.mk.injEq, Except.error.injEq] at h
    exact ⟨fault, h.1.symm⟩
  · next draft _ =>
    rw [Prod.mk.injEq] at h
    obtain ⟨h, -⟩ := h
    cases hfinish : draft.finish (if draft.usesPrimes then PrimeSource.next primes
        else (.standard, primes)).1 with
    | ok artifact => exact absurd h (by simp [hfinish, Except.mapError])
    | error fault =>
      rw [hfinish] at h
      exact ⟨fault, (Except.error.inj h).symm⟩

end EntityForge
