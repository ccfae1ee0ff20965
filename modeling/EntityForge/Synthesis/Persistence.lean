import EntityForge.Generation.Error
import EntityForge.Java.Annotation

/-!
# Persistence annotations

Classes and attributes of managed kinds carry annotations that say how they are stored. An argument that equals
its default is written only when `defaults` is set.
-/

namespace EntityForge

open Java

/-- The package of the persistence annotations. -/
def persistencePackage : String :=
  "javax.persistence"

namespace Persistence

/-- A type of the persistence package, named in full. -/
def type (name : String) : String :=
  persistencePackage ++ "." ++ name

/-- The persistence annotation of a name, without arguments. -/
def use (name : String) : AnnotationUse :=
  .plain persistencePackage name

@[simp]
theorem name_use (name : String) : (use name).name = name :=
  rfl

/-- The length of a column that states none. -/
def defaultLength : Nat :=
  255

/-- The annotations of a class. -/
def classUses (c : ClassModel) : List AnnotationUse :=
  match c.kind with
  | .entity =>
    use "Entity" :: match Text.nonBlank? c.table with
      | some table => [(use "Table").arg "name" (.text table)]
      | none => []
  | .mappedSuperclass => [use "MappedSuperclass"]
  | .embeddable | .embeddedId => [use "Embeddable"]
  | .idClass | .bean => []

/-- An annotation with a constant of an enumeration of the persistence package as its argument. -/
def withConstant {α : Type} [Spelled α] (use : AnnotationUse) (key : Option String) (enumeration : String)
    (constant : α) : AnnotationUse :=
  let value := Value.constant enumeration (Spelled.spelling constant)
  let use :=
    match key with
    | some key => use.arg key value
    | none => use.value value
  use.naming (type enumeration)

/-- An annotation with the time of loading as its last argument, if it is set. -/
def fetching (use : AnnotationUse) (fetch : Option Fetch) : AnnotationUse :=
  match fetch with
  | some fetch => withConstant use "fetch" "FetchType" fetch
  | none => use

@[simp]
theorem name_withConstant {α : Type} [Spelled α] (use : AnnotationUse) (key : Option String) (enumeration : String)
    (constant : α) : (withConstant use key enumeration constant).name = use.name := by
  cases key <;> rfl

@[simp]
theorem name_fetching (use : AnnotationUse) (fetch : Option Fetch) : (fetching use fetch).name = use.name := by
  cases fetch with
  | none => rfl
  | some fetch => exact name_withConstant use (some "fetch") "FetchType" fetch

/-- The annotation of a relationship. -/
def relationship (name : String) (relation : Relation) : AnnotationUse :=
  fetching
    (((use name).arg? "mappedBy" (relation.mappedBy.map .text)).arg? "optional" (relation.optional.map .bool))
    relation.fetch

@[simp]
theorem name_relationship (name : String) (relation : Relation) : (relationship name relation).name = name := by
  rw [relationship, name_fetching, AnnotationUse.name_arg?, AnnotationUse.name_arg?, name_use]

/-- The annotations that say what an attribute is to its class. -/
def mappingUses (defaults : Bool) : Mapping → Except AttributeFault (List AnnotationUse)
  | .id none => .ok [use "Id"]
  | .id (some generation) =>
    .ok [use "Id", withConstant (use "GeneratedValue") "strategy" "GenerationType" generation]
  | .basic => .ok (if defaults then [use "Basic"] else [])
  | .version => .ok [use "Version"]
  | .elementCollection fetch => .ok [fetching (use "ElementCollection") fetch]
  | .transient => .ok [use "Transient"]
  | .embedded => .ok [use "Embedded"]
  | .embeddedId => .ok [use "EmbeddedId"]
  | .oneToOne relation => .ok [relationship "OneToOne" relation]
  | .manyToOne relation =>
    if relation.mappedBy.isSome then .error .mappedManyToOne else .ok [relationship "ManyToOne" relation]
  | .oneToMany relation =>
    if relation.optional.isSome then .error .optionalToMany else .ok [relationship "OneToMany" relation]
  | .manyToMany relation =>
    if relation.optional.isSome then .error .optionalToMany else .ok [relationship "ManyToMany" relation]

/-- Whether attributes of a mapping have a column of their own. -/
def hasColumn : Mapping → Bool
  | .id _ | .basic | .version | .elementCollection _ => true
  | _ => false

/-- A truth value, written unless it is the default. -/
def flagArgument (defaults default : Bool) (value : Bool) : Option Value :=
  if defaults || value != default then some (.bool value) else none

/-- The annotation of a column. -/
def columnUse (defaults : Bool) (column : Column) : AnnotationUse :=
  let length := (column.length.map UInt32.toNat).getD defaultLength
  ((((use "Column").arg? "name" ((Text.nonBlank? column.name).map .text)).arg? "nullable"
    (flagArgument defaults true (column.nullable.getD true))).arg? "unique"
    (flagArgument defaults false (column.unique.getD false))).arg? "length"
    (if defaults || length != defaultLength then some (.int length) else none)

@[simp]
theorem name_columnUse (defaults : Bool) (column : Column) : (columnUse defaults column).name = "Column" := by
  simp [columnUse]

/-- The annotation of a point in time. -/
def temporalUse (temporal : Temporal) : AnnotationUse :=
  withConstant (use "Temporal") none "TemporalType" temporal

/-- The annotation of an enumeration, bare for the default way of storing it. -/
def enumeratedUse (defaults : Bool) (enumerated : Enumerated) : AnnotationUse :=
  if enumerated = .ordinal ∧ ¬defaults then use "Enumerated"
  else withConstant (use "Enumerated") none "EnumType" enumerated

/-- The annotation of a converter. -/
def convertUse (defaults : Bool) (convert : Convert) : AnnotationUse :=
  let converter := Text.nonBlank? convert.converter
  let arguments :=
    (((use "Convert").arg? "converter" (converter.map fun name => .classLiteral (simpleName name))).arg?
      "disableConversion" (flagArgument defaults false convert.disableConversion)).arg? "attributeName"
      ((Text.nonBlank? convert.attributeName).map .text)
  converter.elim arguments arguments.naming

@[simp]
theorem name_convertUse (defaults : Bool) (convert : Convert) : (convertUse defaults convert).name = "Convert" := by
  rw [convertUse]
  cases Text.nonBlank? convert.converter <;> simp

/-- Whether an attribute states anything about its column. -/
def hasColumnSettings (a : Attribute) : Bool :=
  a.column.isSome || a.lob || a.temporal.isSome || a.enumerated.isSome

/-- The annotations that say how the column of an attribute holds its values. -/
def columnUses (defaults : Bool) (a : Attribute) : List AnnotationUse :=
  (a.column.map (columnUse defaults)).toList ++ (if a.lob then [use "Lob"] else [])
    ++ (a.temporal.map temporalUse).toList ++ (a.enumerated.map (enumeratedUse defaults)).toList

/-- The annotations of an attribute of a class of some kind. -/
def attributeUses (defaults : Bool) (kind : ClassKind) (a : Attribute) :
    Except AttributeFault (List AnnotationUse) :=
  if !kind.isManaged then .ok []
  else do
    let mapping ← mappingUses defaults a.mapping
    if hasColumnSettings a && !hasColumn a.mapping then .error .columnSettings
    else .ok (mapping ++ columnUses defaults a ++ (a.convert.map (convertUse defaults)).toList)

end Persistence

end EntityForge
