import EntityForge.Metamodel.Binding
import EntityForge.Metamodel.Constraint
import EntityForge.Metamodel.Extension
import EntityForge.Metamodel.Kind

/-!
# Attributes

An attribute of a class: its type, how it is stored, and what is said about its field and accessors.
-/

namespace EntityForge

/-- How the values of a primary key are made. -/
inductive KeyGeneration where
  | auto
  | identity
  | sequence
  | table
  deriving DecidableEq

instance : Spelled KeyGeneration where
  values := [.auto, .identity, .sequence, .table]
  spelling
    | .auto => "AUTO"
    | .identity => "IDENTITY"
    | .sequence => "SEQUENCE"
    | .table => "TABLE"
  find_spelling := by intro a; cases a <;> decide

/-- When related values are loaded. -/
inductive Fetch where
  | lazy
  | eager
  deriving DecidableEq

instance : Spelled Fetch where
  values := [.lazy, .eager]
  spelling
    | .lazy => "LAZY"
    | .eager => "EAGER"
  find_spelling := by intro a; cases a <;> decide

/-- Which part of a point in time is stored. -/
inductive Temporal where
  | date
  | time
  | timestamp
  deriving DecidableEq

instance : Spelled Temporal where
  values := [.date, .time, .timestamp]
  spelling
    | .date => "DATE"
    | .time => "TIME"
    | .timestamp => "TIMESTAMP"
  find_spelling := by intro a; cases a <;> decide

/-- How a value of an enumeration is stored. -/
inductive Enumerated where
  | ordinal
  | string
  deriving DecidableEq

instance : Spelled Enumerated where
  values := [.ordinal, .string]
  spelling
    | .ordinal => "ORDINAL"
    | .string => "STRING"
  find_spelling := by intro a; cases a <;> decide

/-- The options of a relationship. -/
structure Relation where
  /-- The attribute of the owning side, when this side does not own the relationship. -/
  mappedBy : Option String
  optional : Option Bool
  fetch : Option Fetch
  deriving DecidableEq

/-- How an attribute is stored. -/
inductive Mapping where
  | id (generated : Option KeyGeneration)
  | basic
  | version
  | transient
  | embedded
  | embeddedId
  | elementCollection (fetch : Option Fetch)
  | oneToOne (relation : Relation)
  | manyToOne (relation : Relation)
  | oneToMany (relation : Relation)
  | manyToMany (relation : Relation)
  deriving DecidableEq

/-- The column of an attribute. -/
structure Column where
  name : Option String
  nullable : Option Bool
  unique : Option Bool
  length : Option UInt32
  deriving DecidableEq

/-- The converter of an attribute. -/
structure Convert where
  /-- The converter class, named in full. -/
  converter : Option String
  disableConversion : Bool
  /-- The part of an embedded value or map that is converted. -/
  attributeName : Option String
  deriving DecidableEq

/-- An attribute of a class. `dataType` is the type as it is written in the field. -/
structure Attribute where
  name : String
  dataType : String
  access : Access
  /-- The expression that the field starts with. -/
  defaultValue : Option String
  /-- The text of the comment above the field. -/
  description : Option String
  mapping : Mapping
  column : Option Column
  convert : Option Convert
  lob : Bool
  temporal : Option Temporal
  enumerated : Option Enumerated
  constraints : List Constraint
  /-- Constraints on the keys of a map. -/
  keyConstraints : List Constraint
  /-- Constraints on the elements of a collection or the values of a map. -/
  valueConstraints : List Constraint
  binding : AttributeBinding
  propertyChangeSupport : Bool
  vetoableChangeSupport : Bool
  annotations : List (AnnotationAt AttributeAnnotationPlace)
  /-- Annotations that other tools add. -/
  runtimeAnnotations : List (AnnotationAt AttributeAnnotationPlace)
  snippets : List (SnippetAt AttributePlace)
  /-- Code that other tools add. -/
  runtimeSnippets : List (SnippetAt AttributePlace)
  deriving DecidableEq

/-- The private basic attribute of a name and a type, with nothing else said about it. -/
def Attribute.plain (name dataType : String) : Attribute :=
  { name, dataType, access := .privateAccess, defaultValue := none, description := none, mapping := .basic,
    column := none, convert := none, lob := false, temporal := none, enumerated := none, constraints := [],
    keyConstraints := [], valueConstraints := [], binding := .unset, propertyChangeSupport := false,
    vetoableChangeSupport := false, annotations := [], runtimeAnnotations := [], snippets := [],
    runtimeSnippets := [] }

end EntityForge
