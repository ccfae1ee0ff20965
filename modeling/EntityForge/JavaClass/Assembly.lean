import EntityForge.Generation.Options
import EntityForge.JavaClass.Basic
import EntityForge.Synthesis.Binding
import EntityForge.Synthesis.Constructor
import EntityForge.Synthesis.Method
import EntityForge.Synthesis.Persistence
import EntityForge.Synthesis.Validation

/-!
# Assembling a class

`assemble` makes the `JavaClass` of a class of the metamodel, or finds out what is wrong with it. The field of an
attribute is built where its name first comes up and kept in a memo for every later use.
-/

namespace EntityForge

open Java

/-! ## Fields -/

/-- What is wrong with the attributes of a class: each name has to be an identifier, declared once and not by an
ancestor. -/
def attributeFault? (ancestors : List ClassModel) (seen : List String) : List Attribute → Option Fault
  | [] => none
  | a :: rest =>
    if !isIdentifier a.name then some (.attributeName a.name)
    else if seen.contains a.name then some (.repeatedAttribute a.name)
    else
      match ancestors.find? fun ancestor => (ancestor.attribute? a.name).isSome with
      | some ancestor => some (.inheritedAttribute a.name ancestor.name)
      | none => attributeFault? ancestors (a.name :: seen) rest

namespace JavaField

/-- The field of an attribute that the class itself declares. Constraints on keys need a type with two arguments,
constraints on values one with any. -/
def ofAttribute (options : GenerationOptions) (c : ClassModel) (a : Attribute) :
    Except AttributeFault JavaField := do
  let defaults := options.generateDefaultValues
  let persistence ← Persistence.attributeUses defaults c.kind a
  let constraints ← Constraint.uses defaults a.constraints
  let keyConstraints ← Constraint.uses defaults a.keyConstraints
  let valueConstraints ← Constraint.uses defaults a.valueConstraints
  let arity := typeArity a.dataType
  if !keyConstraints.isEmpty && arity != 2 then .error (.keyConstraints a.dataType)
  else if !valueConstraints.isEmpty && arity == 0 then .error (.valueConstraints a.dataType)
  else
    .ok
      { JavaField.plain a.name a.dataType c.name with
        access := a.access
        defaultValue := a.defaultValue
        description := a.description
        persistence
        constraints
        keyConstraints
        valueConstraints
        binding := a.binding.uses
        annotations := .ofAnnotations (a.annotations ++ a.runtimeAnnotations)
        snippets := .ofSnippets (a.snippets ++ a.runtimeSnippets)
        propertyChangeSupport := options.javaSeSupport && a.propertyChangeSupport
        vetoableChangeSupport := options.javaSeSupport && a.vetoableChangeSupport }

/-- The field that an attribute name stands for in a class. -/
def ofName (model : Metamodel) (options : GenerationOptions) (c : ClassModel) (name : String) :
    Except Fault JavaField := do
  let resolved ← (model.resolve c name).mapError .lookup
  let a := resolved.declared
  if resolved.isOwnedBy c then (ofAttribute options c a).mapError (.ofAttribute a.name)
  else .ok { JavaField.plain a.name a.dataType resolved.owner.name with declared := false }

end JavaField

/-- The fields built so far, by their names. -/
abbrev FieldMemo :=
  List (String × JavaField)

/-- What the fields of a class are built from. -/
structure Workplace where
  model : Metamodel
  options : GenerationOptions
  subject : ClassModel

namespace Workplace

/-- The field of a name, built unless the memo has it. -/
def field (w : Workplace) (memo : FieldMemo) (name : String) : Except Fault (JavaField × FieldMemo) :=
  match memo.lookup name with
  | some f => .ok (f, memo)
  | none => do
    let f ← JavaField.ofName w.model w.options w.subject name
    pure (f, (name, f) :: memo)

/-- The fields of names, in order. -/
def fields (w : Workplace) (memo : FieldMemo) : List String → Except Fault (List JavaField × FieldMemo)
  | [] => .ok ([], memo)
  | name :: names => do
    let (f, memo) ← w.field memo name
    let (fs, memo) ← w.fields memo names
    pure (f :: fs, memo)

/-! ## Methods -/

/-- The members of names, in order; `seen` are the names before them. -/
def members (w : Workplace) (memo : FieldMemo) (seen : List String) :
    List String → Except Fault (List Member × FieldMemo)
  | [] => .ok ([], memo)
  | name :: names =>
    if seen.contains name then .error (.repeatedMember name)
    else do
      let (f, memo) ← w.field memo name
      let (ms, memo) ← w.members memo (name :: seen) names
      pure ({ name, shape := f.shape } :: ms, memo)

/-- A method over the fields of names, with the code around it. -/
def methodInput (w : Workplace) (memo : FieldMemo) (names : List String) (method : MethodModel) :
    Except Fault (MethodInput × FieldMemo) := do
  let (members, memo) ← w.members memo [] names
  pure ({ members, preCode := method.preCode, postCode := method.postCode }, memo)

/-- Whether the members of methods and the constructors are those of a composite key: all own attributes. -/
def isIdentity (w : Workplace) : Bool :=
  w.subject.kind.isIdentifier && w.subject.constructors.isEmpty

/-- The attributes that a method of the class covers. -/
def methodNames (w : Workplace) (method : MethodModel) : List String :=
  if w.isIdentity then w.subject.attributes.map (·.name) else method.attributes

/-! ## Constructors -/

/-- The constructor over the fields of names, those of ancestors first. -/
def constructor (w : Workplace) (memo : FieldMemo) (names : List String) (access : Access) :
    Except Fault (JavaConstructor × FieldMemo) := do
  let (fs, memo) ← w.fields memo names
  let c : JavaConstructor := { access, inherited := fs.filter (!·.declared), own := fs.filter (·.declared) }
  match (c.signature w.subject.name).fault? with
  | some fault => .error fault
  | none => .ok (c, memo)

/-- The constructors that the class declares; `built` are those before them. No two may take parameters of the
same types. -/
def constructors (w : Workplace) (memo : FieldMemo) (built : List JavaConstructor) :
    List ConstructorModel → Except Fault (List JavaConstructor × FieldMemo)
  | [] => .ok ([], memo)
  | model :: rest => do
    let (c, memo) ← w.constructor memo model.attributes model.access
    if built.any fun other => other.parameterTypes == c.parameterTypes then
      .error (.sameParameters model.attributes)
    else
      let (cs, memo) ← w.constructors memo (built ++ [c]) rest
      pure (c :: cs, memo)

/-- The constructors of a composite key: one without parameters and, if it has attributes, one over all. -/
def identityConstructors (w : Workplace) (memo : FieldMemo) (names : List String) :
    Except Fault (List JavaConstructor × FieldMemo) := do
  let (empty, memo) ← w.constructor memo [] .publicAccess
  if names.isEmpty then pure ([empty], memo)
  else
    let (full, memo) ← w.constructor memo names .publicAccess
    pure ([empty, full], memo)

/-- The constructors of the class; `names` are the members of its equality. -/
def allConstructors (w : Workplace) (memo : FieldMemo) (names : List String) :
    Except Fault (List JavaConstructor × FieldMemo) :=
  if w.isIdentity then w.identityConstructors memo names
  else w.constructors memo [] (w.subject.constructors.filter (·.enabled))

/-! ## Classes -/

/-- The superclass, named in full: the one of the metamodel, or else the active reference to one outside. -/
def superclass (w : Workplace) : Except LookupError (Option String) := do
  match ← w.model.superclassOf w.subject with
  | some parent => pure (some (parent.qualifiedName w.model.package))
  | none => pure ((TypeRef.active? w.subject.superclassRef).map (·.name))

/-- The enabled interfaces, each once: those of the metamodel, unless the class is a composite key, and then its
own. -/
def interfaces (w : Workplace) : List String :=
  let shared := if w.subject.kind.isIdentifier then [] else w.model.interfaces
  (((shared ++ w.subject.interfaces).filter (·.enabled)).map (·.name)).eraseDups

/-- The names of the attributes that the class can see, its own first. -/
def visibleNames (w : Workplace) (ancestors : List ClassModel) : List String :=
  (w.subject :: ancestors).flatMap fun c => c.attributes.map (·.name)

end Workplace

/-- A class whose hash code and text are still to be written. -/
structure Draft where
  /-- The class without these two methods. -/
  base : JavaClass
  hashing : MethodInput
  printing : MethodInput

namespace Draft

/-- The draft of the class at a workplace, or the first thing that is wrong with it. -/
def ofWorkplace (w : Workplace) : Except Fault Draft := do
  let c := w.subject
  if !isIdentifier c.name then .error (.className c.name)
  else
    let ancestors ← (w.model.ancestors c).mapError .lookup
    match attributeFault? ancestors [] c.attributes with
    | some fault => .error fault
    | none =>
      -- Own fields come first: what is wrong with one of them is found before what is wrong with a method.
      let (fields, memo) ← w.fields [] (c.attributes.map (·.name))
      let (equality, memo) ← w.methodInput memo (w.methodNames c.equalsMethod) c.equalsMethod
      let (hashing, memo) ← w.methodInput memo (w.methodNames c.hashCodeMethod) c.hashCodeMethod
      let (printing, memo) ← w.methodInput memo (w.methodNames c.toStringMethod) c.toStringMethod
      let (constructors, _) ← w.allConstructors memo (equality.members.map (·.name))
      let binding ← c.binding.uses (w.visibleNames ancestors)
      let superclass ← w.superclass.mapError .lookup
      let equalsMethod ← equality.equalsBody c.name
      pure
        { base :=
            { kind := c.kind
              package := c.packageOr w.model.package
              name := c.name
              isAbstract := c.isAbstract
              superclass
              interfaces := w.interfaces
              persistence := Persistence.classUses c
              binding
              annotations := .ofAnnotations (c.annotations ++ c.runtimeAnnotations)
              snippets := .ofSnippets (w.model.snippets ++ c.snippets ++ c.runtimeSnippets)
              fields
              constructors
              equalsMethod
              hashCodeMethod := none
              toStringMethod := none
              bindingSupport := w.model.bindingSupport }
          hashing
          printing }

/-- Whether the hash code of the draft is written with primes. -/
def usesPrimes (d : Draft) : Bool :=
  d.hashing.usesPrimes d.base.name

/-- The class with its hash code and text written. -/
def finish (d : Draft) (primes : PrimePair) : Except Fault JavaClass := do
  let hashCodeMethod ← d.hashing.hashCodeBody d.base.name primes
  let toStringMethod ← d.printing.toStringBody d.base.name
  pure { d.base with hashCodeMethod, toStringMethod }

end Draft

/-- The class of the metamodel as it is generated, or the first thing that is wrong with it, and what is left of
the primes. A pair is drawn when the hash code is written, after all checks but those of the text. -/
def assemble {σ : Type} [PrimeSource σ] (model : Metamodel) (options : GenerationOptions) (c : ClassModel)
    (primes : σ) : Except GenerationError JavaClass × σ :=
  match Draft.ofWorkplace { model, options, subject := c } with
  | .error fault => (.error (.invalidInput c.name fault), primes)
  | .ok draft =>
    -- A hash code without anything to hash draws nothing.
    let (pair, primes) := if draft.usesPrimes then PrimeSource.next primes else (.standard, primes)
    ((draft.finish pair).mapError (.invalidInput c.name), primes)

end EntityForge
