import EntityForge.Json.Value
import EntityForge.Metamodel.Basic

/-!
# Writing a metamodel

Each type of the metamodel is written as a value of the interchange format, with every field, in the order of
its declaration.
-/

namespace EntityForge

namespace Json

/-- The value of a word. -/
def word {α : Type} [Spelled α] (a : α) : Json :=
  .text (Spelled.spelling a)

/-- The value of something that may be absent. -/
def orNull {α : Type} (write : α → Json) : Option α → Json
  | none => .null
  | some a => write a

/-- The array of the items of a list. -/
def list {α : Type} (write : α → Json) (items : List α) : Json :=
  .array (items.map write)

end Json

open Json

def TypeRef.toJson (r : TypeRef) : Json :=
  .object [("name", .text r.name), ("enabled", .bool r.enabled)]

def AnnotationAt.toJson {L : Type} [Spelled L] (a : AnnotationAt L) : Json :=
  .object [("name", .text a.name), ("location", word a.location), ("enabled", .bool a.enabled)]

def SnippetAt.toJson {L : Type} [Spelled L] (s : SnippetAt L) : Json :=
  .object [("value", .text s.value), ("location", word s.location), ("enabled", .bool s.enabled)]

/-! ## Constraints -/

/-- The kind and the options of a rule. -/
def Rule.toFields : Rule → List (String × Json)
  | .marker m => [("kind", word m)]
  | .min value => [("kind", .text "Min"), ("value", orNull (fun n => .int n.toInt) value)]
  | .max value => [("kind", .text "Max"), ("value", orNull (fun n => .int n.toInt) value)]
  | .decimalMin value inclusive =>
    [("kind", .text "DecimalMin"), ("value", orNull .text value), ("inclusive", orNull .bool inclusive)]
  | .decimalMax value inclusive =>
    [("kind", .text "DecimalMax"), ("value", orNull .text value), ("inclusive", orNull .bool inclusive)]
  | .size low high =>
    [("kind", .text "Size"), ("min", orNull (fun n => .int n.toNat) low),
      ("max", orNull (fun n => .int n.toNat) high)]
  | .digits integer fraction =>
    [("kind", .text "Digits"), ("integer", orNull (fun n => .int n.toNat) integer),
      ("fraction", orNull (fun n => .int n.toNat) fraction)]
  | .pattern regexp flags =>
    [("kind", .text "Pattern"), ("regexp", orNull .text regexp), ("flags", list word flags)]
  | .email regexp => [("kind", .text "Email"), ("regexp", orNull .text regexp)]

def Constraint.toJson (c : Constraint) : Json :=
  .object ([("selected", .bool c.selected), ("message", orNull .text c.message)] ++ c.rule.toFields)

/-! ## Bindings -/

def Format.toJson (f : Format) : Json :=
  .object [("value", orNull .text f.value), ("locale", orNull .text f.locale)]

def BindingTypes.toFields (t : BindingTypes) : List (String × Json) :=
  [("date_format", orNull Format.toJson t.dateFormat),
    ("number_format", orNull Format.toJson t.numberFormat),
    ("type_adapter", orNull TypeRef.toJson t.typeAdapter),
    ("type_deserializer", orNull TypeRef.toJson t.typeDeserializer),
    ("type_serializer", orNull TypeRef.toJson t.typeSerializer)]

def ClassBinding.toJson (b : ClassBinding) : Json :=
  .object ([("nillable", .bool b.nillable), ("property_order", list .text b.propertyOrder)]
    ++ b.types.toFields ++ [("visibility", orNull TypeRef.toJson b.visibility)])

def AttributeBinding.toJson (b : AttributeBinding) : Json :=
  .object ([("transient", .bool b.transient), ("property", orNull .text b.property),
    ("nillable", .bool b.nillable)] ++ b.types.toFields)

/-! ## Attributes -/

def Relation.toFields (r : Relation) : List (String × Json) :=
  [("mapped_by", orNull .text r.mappedBy), ("optional", orNull .bool r.optional),
    ("fetch", orNull word r.fetch)]

def Mapping.toJson : Mapping → Json
  | .id generated => .object [("kind", .text "id"), ("generated", orNull word generated)]
  | .basic => .object [("kind", .text "basic")]
  | .version => .object [("kind", .text "version")]
  | .transient => .object [("kind", .text "transient")]
  | .embedded => .object [("kind", .text "embedded")]
  | .embeddedId => .object [("kind", .text "embedded_id")]
  | .elementCollection fetch =>
    .object [("kind", .text "element_collection"), ("fetch", orNull word fetch)]
  | .oneToOne relation => .object (("kind", .text "one_to_one") :: relation.toFields)
  | .manyToOne relation => .object (("kind", .text "many_to_one") :: relation.toFields)
  | .oneToMany relation => .object (("kind", .text "one_to_many") :: relation.toFields)
  | .manyToMany relation => .object (("kind", .text "many_to_many") :: relation.toFields)

def Column.toJson (c : Column) : Json :=
  .object [("name", orNull .text c.name), ("nullable", orNull .bool c.nullable),
    ("unique", orNull .bool c.unique), ("length", orNull (fun n => .int n.toNat) c.length)]

def Convert.toJson (c : Convert) : Json :=
  .object [("converter", orNull .text c.converter), ("disable_conversion", .bool c.disableConversion),
    ("attribute_name", orNull .text c.attributeName)]

def Attribute.toJson (a : Attribute) : Json :=
  .object [("name", .text a.name), ("data_type", .text a.dataType), ("access", word a.access),
    ("default_value", orNull .text a.defaultValue), ("description", orNull .text a.description),
    ("mapping", a.mapping.toJson), ("column", orNull Column.toJson a.column),
    ("convert", orNull Convert.toJson a.convert), ("lob", .bool a.lob),
    ("temporal", orNull word a.temporal), ("enumerated", orNull word a.enumerated),
    ("constraints", list Constraint.toJson a.constraints),
    ("key_constraints", list Constraint.toJson a.keyConstraints),
    ("value_constraints", list Constraint.toJson a.valueConstraints),
    ("binding", a.binding.toJson),
    ("property_change_support", .bool a.propertyChangeSupport),
    ("vetoable_change_support", .bool a.vetoableChangeSupport),
    ("annotations", list AnnotationAt.toJson a.annotations),
    ("runtime_annotations", list AnnotationAt.toJson a.runtimeAnnotations),
    ("snippets", list SnippetAt.toJson a.snippets),
    ("runtime_snippets", list SnippetAt.toJson a.runtimeSnippets)]

/-! ## Classes -/

def MethodModel.toJson (m : MethodModel) : Json :=
  .object [("attributes", list .text m.attributes), ("pre_code", orNull .text m.preCode),
    ("post_code", orNull .text m.postCode)]

def ConstructorModel.toJson (c : ConstructorModel) : Json :=
  .object [("attributes", list .text c.attributes), ("enabled", .bool c.enabled), ("access", word c.access)]

def ClassModel.toJson (c : ClassModel) : Json :=
  .object [("name", .text c.name), ("package", orNull .text c.package), ("kind", word c.kind),
    ("abstract", .bool c.isAbstract), ("generate_source", .bool c.generateSource),
    ("table", orNull .text c.table), ("superclass", orNull .text c.superclass),
    ("superclass_ref", orNull TypeRef.toJson c.superclassRef),
    ("interfaces", list TypeRef.toJson c.interfaces), ("attributes", list Attribute.toJson c.attributes),
    ("constructors", list ConstructorModel.toJson c.constructors),
    ("equals_method", c.equalsMethod.toJson), ("hash_code_method", c.hashCodeMethod.toJson),
    ("to_string_method", c.toStringMethod.toJson),
    ("annotations", list AnnotationAt.toJson c.annotations),
    ("runtime_annotations", list AnnotationAt.toJson c.runtimeAnnotations),
    ("snippets", list SnippetAt.toJson c.snippets),
    ("runtime_snippets", list SnippetAt.toJson c.runtimeSnippets), ("binding", c.binding.toJson)]

def Metamodel.toJson (m : Metamodel) : Json :=
  .object [("package", .text m.package), ("binding_support", .bool m.bindingSupport),
    ("persistence_unit", orNull .text m.persistenceUnit),
    ("interfaces", list TypeRef.toJson m.interfaces), ("snippets", list SnippetAt.toJson m.snippets),
    ("classes", list ClassModel.toJson m.classes)]

end EntityForge
