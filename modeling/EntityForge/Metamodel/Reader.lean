import EntityForge.Json.Reader
import EntityForge.Json.Record
import EntityForge.Metamodel.Basic

/-!
# Reading a metamodel

Each type of the metamodel is read from a value of the interchange format. A reader fails where a required field
is missing, a known field is repeated, a value has another type than its field, or a word is none of its type.

Readers of constraints and mappings set fields aside until they know the kind. They take the levels of nesting
that are still allowed, which at the top are `maxNesting`.
-/

namespace EntityForge

open Json

/-- The levels of nesting that are allowed in fields that are set aside. -/
def maxNesting : Nat :=
  127

namespace TypeRef

def read (v : Json) : Option TypeRef := do
  let r ← v.record? ["name", "enabled"]
  pure {
    name := ← r.required "name" text?
    enabled := ← r.optional "enabled" true bool? }

end TypeRef

namespace AnnotationAt

def read {L : Type} [Spelled L] (v : Json) : Option (AnnotationAt L) := do
  let r ← v.record? ["name", "location", "enabled"]
  pure {
    name := ← r.required "name" text?
    location := ← r.required "location" word?
    enabled := ← r.optional "enabled" true bool? }

end AnnotationAt

namespace SnippetAt

def read {L : Type} [Spelled L] (v : Json) : Option (SnippetAt L) := do
  let r ← v.record? ["value", "location", "enabled"]
  pure {
    value := ← r.required "value" text?
    location := ← r.required "location" word?
    enabled := ← r.optional "enabled" true bool? }

end SnippetAt

/-! ## Constraints -/

namespace Rule

/-- A bound of 64 bits under `value`. -/
def readBound (rest : Json) : Option (Option Int64) := do
  let r ← rest.record? ["value"]
  r.nullable "value" int64?

/-- A decimal bound and whether it belongs to the range. -/
def readDecimal (rest : Json) : Option (Option String × Option Bool) := do
  let r ← rest.record? ["value", "inclusive"]
  let value ← r.nullable "value" text?
  let inclusive ← r.nullable "inclusive" bool?
  pure (value, inclusive)

/-- Two counts of 32 bits. -/
def readCounts (first second : String) (rest : Json) : Option (Option UInt32 × Option UInt32) := do
  let r ← rest.record? [first, second]
  let a ← r.nullable first uint32?
  let b ← r.nullable second uint32?
  pure (a, b)

/-- A rule of a kind, with its options. -/
def ofKind (kind : String) (rest : Json) : Option Rule :=
  match kind with
  | "Min" => (readBound rest).map .min
  | "Max" => (readBound rest).map .max
  | "DecimalMin" => (readDecimal rest).map fun (value, inclusive) => .decimalMin value inclusive
  | "DecimalMax" => (readDecimal rest).map fun (value, inclusive) => .decimalMax value inclusive
  | "Size" => (readCounts "min" "max" rest).map fun (low, high) => .size low high
  | "Digits" => (readCounts "integer" "fraction" rest).map fun (integer, fraction) => .digits integer fraction
  | "Pattern" => do
    let r ← rest.record? ["regexp", "flags"]
    let regexp ← r.nullable "regexp" text?
    let flags ← r.items "flags" taggedWord?
    pure (.pattern regexp flags)
  | "Email" => do
    let r ← rest.record? ["regexp"]
    (r.nullable "regexp" text?).map .email
  | _ => do
    let marker ← Spelled.ofWord? kind
    let _ ← rest.noOptions?
    pure (.marker marker)

/-- The kinds of rules, by their number. -/
def kinds : List String :=
  (Spelled.values : List Marker).map Spelled.spelling
    ++ ["Min", "Max", "DecimalMin", "DecimalMax", "Size", "Digits", "Pattern", "Email"]

/-- A rule that stands by itself. -/
def read (room : Nat) (v : Json) : Option Rule := do
  let (kind, rest) ← v.tagged? room
  ofKind kind rest

/-- The kind of a rule inside its constraint: a word or the number of the kind. -/
def kindOf? : Json → Option String
  | .text kind => some kind
  | .number n => do
    let i ← n.toInt?
    if 0 ≤ i then kinds[i.toNat]? else none
  | _ => none

end Rule

namespace Constraint

/-- A constraint is an object that holds its own fields and those of its rule side by side. -/
def read (room : Nat) : Json → Option Constraint
  | .object fields => do
    let r ← (Json.object fields).record? ["selected", "message"]
    let selected ← r.optional "selected" true bool?
    let message ← r.nullable "message" text?
    let others := fields.filter fun field => field.1 != "selected" && field.1 != "message"
    if 0 < room && fieldsKeepable (room - 1) others then
      let tag ← sole? "kind" others
      let kind ← Rule.kindOf? tag
      let rule ← Rule.ofKind kind (.object (others.filter (·.1 != "kind")))
      pure { selected, message, rule }
    else none
  | _ => none

end Constraint

/-! ## Bindings -/

namespace Format

def read (v : Json) : Option Format := do
  let r ← v.record? ["value", "locale"]
  pure {
    value := ← r.nullable "value" text?
    locale := ← r.nullable "locale" text? }

end Format

namespace BindingTypes

/-- The formats and converters among the fields of a binding. -/
def ofRecord (r : Record) : Option BindingTypes := do
  pure {
    dateFormat := ← r.nullable "date_format" Format.read
    numberFormat := ← r.nullable "number_format" Format.read
    typeAdapter := ← r.nullable "type_adapter" TypeRef.read
    typeDeserializer := ← r.nullable "type_deserializer" TypeRef.read
    typeSerializer := ← r.nullable "type_serializer" TypeRef.read }

end BindingTypes

namespace ClassBinding

def read (v : Json) : Option ClassBinding := do
  let r ← v.record? ["nillable", "property_order", "date_format", "number_format", "type_adapter",
    "type_deserializer", "type_serializer", "visibility"]
  pure {
    nillable := ← r.flag "nillable"
    propertyOrder := ← r.items "property_order" text?
    types := ← BindingTypes.ofRecord r
    visibility := ← r.nullable "visibility" TypeRef.read }

end ClassBinding

namespace AttributeBinding

def read (v : Json) : Option AttributeBinding := do
  let r ← v.record? ["transient", "property", "nillable", "date_format", "number_format", "type_adapter",
    "type_deserializer", "type_serializer"]
  pure {
    transient := ← r.flag "transient"
    property := ← r.nullable "property" text?
    nillable := ← r.flag "nillable"
    types := ← BindingTypes.ofRecord r }

end AttributeBinding

/-! ## Attributes -/

namespace Relation

def read (v : Json) : Option Relation := do
  let r ← v.record? ["mapped_by", "optional", "fetch"]
  pure {
    mappedBy := ← r.nullable "mapped_by" text?
    optional := ← r.nullable "optional" bool?
    fetch := ← r.nullable "fetch" taggedWord? }

end Relation

namespace Mapping

/-- A mapping of a kind, with its options. -/
def ofKind (kind : String) (rest : Json) : Option Mapping :=
  match kind with
  | "id" => do
    let r ← rest.record? ["generated"]
    (r.nullable "generated" taggedWord?).map .id
  | "basic" => rest.noOptions?.map fun _ => .basic
  | "version" => rest.noOptions?.map fun _ => .version
  | "transient" => rest.noOptions?.map fun _ => .transient
  | "embedded" => rest.noOptions?.map fun _ => .embedded
  | "embedded_id" => rest.noOptions?.map fun _ => .embeddedId
  | "element_collection" => do
    let r ← rest.record? ["fetch"]
    (r.nullable "fetch" taggedWord?).map .elementCollection
  | "one_to_one" => (Relation.read rest).map .oneToOne
  | "many_to_one" => (Relation.read rest).map .manyToOne
  | "one_to_many" => (Relation.read rest).map .oneToMany
  | "many_to_many" => (Relation.read rest).map .manyToMany
  | _ => none

def read (room : Nat) (v : Json) : Option Mapping := do
  let (kind, rest) ← v.tagged? room
  ofKind kind rest

end Mapping

namespace Column

def read (v : Json) : Option Column := do
  let r ← v.record? ["name", "nullable", "unique", "length"]
  pure {
    name := ← r.nullable "name" text?
    nullable := ← r.nullable "nullable" bool?
    unique := ← r.nullable "unique" bool?
    length := ← r.nullable "length" uint32? }

end Column

namespace Convert

def read (v : Json) : Option Convert := do
  let r ← v.record? ["converter", "disable_conversion", "attribute_name"]
  pure {
    converter := ← r.nullable "converter" text?
    disableConversion := ← r.flag "disable_conversion"
    attributeName := ← r.nullable "attribute_name" text? }

end Convert

namespace Attribute

def read (room : Nat) (v : Json) : Option Attribute := do
  let r ← v.record? ["name", "data_type", "access", "default_value", "description", "mapping", "column",
    "convert", "lob", "temporal", "enumerated", "constraints", "key_constraints", "value_constraints",
    "binding", "property_change_support", "vetoable_change_support", "annotations", "runtime_annotations",
    "snippets", "runtime_snippets"]
  pure {
    name := ← r.required "name" text?
    dataType := ← r.required "data_type" text?
    access := ← r.optional "access" .privateAccess word?
    defaultValue := ← r.nullable "default_value" text?
    description := ← r.nullable "description" text?
    mapping := ← r.optional "mapping" .basic (Mapping.read (room - 1))
    column := ← r.nullable "column" Column.read
    convert := ← r.nullable "convert" Convert.read
    lob := ← r.flag "lob"
    temporal := ← r.nullable "temporal" word?
    enumerated := ← r.nullable "enumerated" word?
    constraints := ← r.items "constraints" (Constraint.read (room - 2))
    keyConstraints := ← r.items "key_constraints" (Constraint.read (room - 2))
    valueConstraints := ← r.items "value_constraints" (Constraint.read (room - 2))
    binding := ← r.optional "binding" .unset AttributeBinding.read
    propertyChangeSupport := ← r.flag "property_change_support"
    vetoableChangeSupport := ← r.flag "vetoable_change_support"
    annotations := ← r.items "annotations" AnnotationAt.read
    runtimeAnnotations := ← r.items "runtime_annotations" AnnotationAt.read
    snippets := ← r.items "snippets" SnippetAt.read
    runtimeSnippets := ← r.items "runtime_snippets" SnippetAt.read }

end Attribute

/-! ## Classes -/

namespace MethodModel

def read (v : Json) : Option MethodModel := do
  let r ← v.record? ["attributes", "pre_code", "post_code"]
  pure {
    attributes := ← r.items "attributes" text?
    preCode := ← r.nullable "pre_code" text?
    postCode := ← r.nullable "post_code" text? }

end MethodModel

namespace ConstructorModel

def read (v : Json) : Option ConstructorModel := do
  let r ← v.record? ["attributes", "enabled", "access"]
  pure {
    attributes := ← r.items "attributes" text?
    enabled := ← r.optional "enabled" true bool?
    access := ← r.optional "access" .publicAccess word? }

end ConstructorModel

namespace ClassModel

def read (room : Nat) (v : Json) : Option ClassModel := do
  let r ← v.record? ["name", "package", "kind", "abstract", "generate_source", "table", "superclass",
    "superclass_ref", "interfaces", "attributes", "constructors", "equals_method", "hash_code_method",
    "to_string_method", "annotations", "runtime_annotations", "snippets", "runtime_snippets", "binding"]
  pure {
    name := ← r.required "name" text?
    package := ← r.nullable "package" text?
    kind := ← r.required "kind" word?
    isAbstract := ← r.flag "abstract"
    generateSource := ← r.optional "generate_source" true bool?
    table := ← r.nullable "table" text?
    superclass := ← r.nullable "superclass" text?
    superclassRef := ← r.nullable "superclass_ref" TypeRef.read
    interfaces := ← r.items "interfaces" TypeRef.read
    attributes := ← r.items "attributes" (Attribute.read (room - 2))
    constructors := ← r.items "constructors" ConstructorModel.read
    equalsMethod := ← r.optional "equals_method" .nothing MethodModel.read
    hashCodeMethod := ← r.optional "hash_code_method" .nothing MethodModel.read
    toStringMethod := ← r.optional "to_string_method" .nothing MethodModel.read
    annotations := ← r.items "annotations" AnnotationAt.read
    runtimeAnnotations := ← r.items "runtime_annotations" AnnotationAt.read
    snippets := ← r.items "snippets" SnippetAt.read
    runtimeSnippets := ← r.items "runtime_snippets" SnippetAt.read
    binding := ← r.optional "binding" .unset ClassBinding.read }

end ClassModel

namespace Metamodel

/-- The metamodel that a value describes. Every field may be left out. -/
def read (v : Json) : Option Metamodel := do
  let r ← v.record? ["package", "binding_support", "persistence_unit", "interfaces", "snippets", "classes"]
  pure {
    package := ← r.optional "package" "" text?
    bindingSupport := ← r.flag "binding_support"
    persistenceUnit := ← r.nullable "persistence_unit" text?
    interfaces := ← r.items "interfaces" TypeRef.read
    snippets := ← r.items "snippets" SnippetAt.read
    classes := ← r.items "classes" (ClassModel.read (maxNesting - 2)) }

/-- The metamodel that a text describes. -/
def ofText? (s : String) : Option Metamodel := do
  let v ← Json.ofText? s
  read v

end Metamodel

end EntityForge
