import EntityForge.Java.Annotation
import EntityForge.Java.Statement
import EntityForge.Metamodel.Basic
import EntityForge.Synthesis.Constructor
import EntityForge.Synthesis.Placement

/-!
# Generated classes

A `JavaClass` holds all that the source of a class is written from: its annotations, fields, constructors and
methods, still in their parts, and the texts written by hand with their places.
-/

namespace EntityForge

open Java

/-- An attribute as the generated class sees it. -/
structure JavaField where
  name : String
  /-- The type as it is written in the field. -/
  type : String
  access : Access
  defaultValue : Option String
  description : Option String
  /-- The class that declares the attribute. -/
  owner : String
  /-- Whether the generated class declares it; inherited attributes are only parameters of constructors. -/
  declared : Bool
  persistence : List AnnotationUse
  constraints : List AnnotationUse
  /-- Constraints written in the type, before the key of a map. -/
  keyConstraints : List AnnotationUse
  /-- Constraints written in the type, before the elements of a collection or the values of a map. -/
  valueConstraints : List AnnotationUse
  binding : List AnnotationUse
  annotations : Placed AttributeAnnotationPlace
  snippets : Placed AttributePlace
  propertyChangeSupport : Bool
  vetoableChangeSupport : Bool
  deriving DecidableEq

namespace JavaField

/-- The field of a name and a type that an owner declares, with nothing else said about it. -/
def plain (name type owner : String) : JavaField :=
  { name, type, access := .privateAccess, defaultValue := none, description := none, owner, declared := true,
    persistence := [], constraints := [], keyConstraints := [], valueConstraints := [], binding := [],
    annotations := [], snippets := [], propertyChangeSupport := false, vetoableChangeSupport := false }

/-- How the values of the field are compared and hashed. -/
def shape (f : JavaField) : Shape :=
  .ofType f.type

/-- All annotations of the field and of its type arguments. -/
def uses (f : JavaField) : List AnnotationUse :=
  f.persistence ++ f.constraints ++ f.keyConstraints ++ f.valueConstraints ++ f.binding

end JavaField

/-- A constructor and the fields that it takes. -/
structure JavaConstructor where
  access : Access
  /-- Fields of ancestors, passed on to the superclass. -/
  inherited : List JavaField
  /-- Fields of the class, assigned by the constructor. -/
  own : List JavaField
  deriving DecidableEq

namespace JavaConstructor

/-- The number of parameters. -/
def arity (c : JavaConstructor) : Nat :=
  c.inherited.length + c.own.length

/-- The signature of the constructor of a class. -/
def signature (c : JavaConstructor) (className : String) : Signature :=
  let parameter (f : JavaField) : Parameter := { name := f.name, type := f.type }
  { access := c.access, className, inherited := c.inherited.map parameter, own := c.own.map parameter }

/-- The types of the parameters, in their order. -/
def parameterTypes (c : JavaConstructor) : List String :=
  (c.inherited ++ c.own).map (·.type)

end JavaConstructor

/-- All that the source of a class is written from. -/
structure JavaClass where
  kind : ClassKind
  package : String
  name : String
  isAbstract : Bool
  /-- The superclass, named in full. -/
  superclass : Option String
  /-- The interfaces, named in full, each once. -/
  interfaces : List String
  persistence : List AnnotationUse
  binding : List AnnotationUse
  annotations : Placed ClassAnnotationPlace
  snippets : Placed ClassPlace
  /-- The declared fields, in the order of their declaration. -/
  fields : List JavaField
  constructors : List JavaConstructor
  equalsMethod : Option (List Statement)
  hashCodeMethod : Option (List Statement)
  toStringMethod : Option (List Statement)
  bindingSupport : Bool
  deriving DecidableEq

namespace JavaClass

/-- The name of the class in full. -/
def qualifiedName (c : JavaClass) : String :=
  qualify c.package c.name

/-- Whether a field reports its changes. -/
def propertyChangeSupport (c : JavaClass) : Bool :=
  c.fields.any (·.propertyChangeSupport)

/-- Whether the changes of a field can be refused. -/
def vetoableChangeSupport (c : JavaClass) : Bool :=
  c.fields.any (·.vetoableChangeSupport)

/-- The superclass as it is written in the class. -/
def superclassSimpleName (c : JavaClass) : Option String :=
  c.superclass.map simpleName

end JavaClass

end EntityForge
