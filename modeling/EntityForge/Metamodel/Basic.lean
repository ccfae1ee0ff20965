import EntityForge.Metamodel.Attribute

/-!
# Classes and the metamodel

A metamodel lists the classes to generate, with the package, interfaces and code that they share.
-/

namespace EntityForge

/-- The attributes that a generated method covers, and the code around them. -/
structure MethodModel where
  /-- Attribute names, in the order of the method. -/
  attributes : List String
  /-- Code before the part of the attributes. -/
  preCode : Option String
  /-- Code after the part of the attributes. -/
  postCode : Option String
  deriving DecidableEq

namespace MethodModel

/-- The method over the named attributes, without further code. -/
def of (attributes : List String) : MethodModel :=
  { attributes, preCode := none, postCode := none }

/-- The method over nothing. -/
def nothing : MethodModel :=
  of []

end MethodModel

/-- A constructor and the attributes that it assigns. -/
structure ConstructorModel where
  /-- Attribute names, in the order given by the author. -/
  attributes : List String
  enabled : Bool
  access : Access
  deriving DecidableEq

/-- The enabled public constructor over the named attributes. -/
def ConstructorModel.of (attributes : List String) : ConstructorModel :=
  { attributes, enabled := true, access := .publicAccess }

/-- A class to generate. -/
structure ClassModel where
  name : String
  /-- The package, when it is not that of the metamodel. -/
  package : Option String
  kind : ClassKind
  isAbstract : Bool
  /-- Whether the class is generated, or only there for others to extend. -/
  generateSource : Bool
  /-- The table of an entity. -/
  table : Option String
  /-- The superclass, by its name in the metamodel. -/
  superclass : Option String
  /-- The superclass outside the metamodel. -/
  superclassRef : Option TypeRef
  interfaces : List TypeRef
  attributes : List Attribute
  constructors : List ConstructorModel
  equalsMethod : MethodModel
  hashCodeMethod : MethodModel
  toStringMethod : MethodModel
  annotations : List (AnnotationAt ClassAnnotationPlace)
  /-- Annotations that other tools add. -/
  runtimeAnnotations : List (AnnotationAt ClassAnnotationPlace)
  snippets : List (SnippetAt ClassPlace)
  /-- Code that other tools add. -/
  runtimeSnippets : List (SnippetAt ClassPlace)
  binding : ClassBinding
  deriving DecidableEq

/-- A name within a package; the empty package has no name of its own. -/
def qualify (package name : String) : String :=
  if package = "" then name else package ++ "." ++ name

/-- A name without dots is what its full name ends in. -/
theorem simpleName_qualify {package name : String} (h : '.' ∉ name.toList) :
    simpleName (qualify package name) = name := by
  obtain ⟨hself, -⟩ := Text.afterLastChars_of_not_mem h
  unfold qualify
  split
  · rw [simpleName, Text.afterLast, hself, String.ofList_toList]
  · exact simpleName_append h

namespace ClassModel

/-- The class of a name and a kind that has nothing in it. -/
def empty (name : String) (kind : ClassKind) : ClassModel :=
  { name, package := none, kind, isAbstract := false, generateSource := true, table := none,
    superclass := none, superclassRef := none, interfaces := [], attributes := [], constructors := [],
    equalsMethod := .nothing, hashCodeMethod := .nothing, toStringMethod := .nothing, annotations := [],
    runtimeAnnotations := [], snippets := [], runtimeSnippets := [], binding := .unset }

/-- The package of the class, given that of the metamodel. -/
def packageOr (c : ClassModel) (default : String) : String :=
  c.package.getD default

/-- The name of the class in full, given the package of the metamodel. -/
def qualifiedName (c : ClassModel) (default : String) : String :=
  qualify (c.packageOr default) c.name

/-- The first attribute of a name that the class itself declares. -/
def attribute? (c : ClassModel) (name : String) : Option Attribute :=
  c.attributes.find? (·.name == name)

end ClassModel

/-- The classes to generate and what they share. -/
structure Metamodel where
  /-- The package of every class that names none. -/
  package : String
  bindingSupport : Bool
  /-- The name of the persistence unit that is to be described. -/
  persistenceUnit : Option String
  /-- Interfaces of every class, ahead of its own. -/
  interfaces : List TypeRef
  /-- Code of every class, ahead of its own. -/
  snippets : List (SnippetAt ClassPlace)
  classes : List ClassModel
  deriving DecidableEq

namespace Metamodel

/-- The metamodel of a package without classes. -/
def empty (package : String) : Metamodel :=
  { package, bindingSupport := false, persistenceUnit := none, interfaces := [], snippets := [], classes := [] }

/-- The classes of a kind, in the order of their declaration. -/
def classesOf (model : Metamodel) (kind : ClassKind) : List ClassModel :=
  model.classes.filter (·.kind == kind)

/-- The first class of a name. -/
def class? (model : Metamodel) (name : String) : Option ClassModel :=
  model.classes.find? (·.name == name)

end Metamodel

end EntityForge
