import EntityForge.Generation.Error
import EntityForge.Java.Annotation

/-!
# Binding annotations

Annotations that say how classes and attributes are bound to documents.
-/

namespace EntityForge

open Java

/-- The package of the binding annotations. -/
def bindingPackage : String :=
  "javax.json.bind.annotation"

/-- The binding annotation of a name, without arguments. -/
def bindingUse (name : String) : AnnotationUse :=
  .plain bindingPackage name

/-- The annotation of a format that is not empty. -/
def Format.use? (name : String) (format : Option Format) : Option AnnotationUse :=
  (format.filter (!·.isEmpty)).map fun format =>
    ((bindingUse name).arg? "value" ((Text.nonBlank? format.value).map .text)).arg? "locale"
      ((Text.nonBlank? format.locale).map .text)

/-- The reference, if it is enabled and names something. -/
def TypeRef.active? (ref : Option TypeRef) : Option TypeRef :=
  ref.filter fun ref => ref.enabled && !Text.isBlank ref.name

/-- The annotation that names the class of an active reference. -/
def TypeRef.use? (name : String) (ref : Option TypeRef) : Option AnnotationUse :=
  (active? ref).map fun ref => ((bindingUse name).value (.classLiteral ref.simpleName)).naming ref.name

/-- The annotations of formats and converters. -/
def BindingTypes.uses (t : BindingTypes) : List AnnotationUse :=
  (Format.use? "JsonbDateFormat" t.dateFormat).toList
    ++ (Format.use? "JsonbNumberFormat" t.numberFormat).toList
    ++ (TypeRef.use? "JsonbTypeAdapter" t.typeAdapter).toList
    ++ (TypeRef.use? "JsonbTypeDeserializer" t.typeDeserializer).toList
    ++ (TypeRef.use? "JsonbTypeSerializer" t.typeSerializer).toList

namespace AttributeBinding

/-- The annotation of the property: its name alone, or its name and that it may be null. -/
def propertyUse? (b : AttributeBinding) : Option AnnotationUse :=
  match Text.nonBlank? b.property, b.nillable with
  | some property, false => some ((bindingUse "JsonbProperty").value (.text property))
  | some property, true =>
    some (((bindingUse "JsonbProperty").arg "value" (.text property)).arg "nillable" (.bool true))
  | none, true => some ((bindingUse "JsonbProperty").arg "nillable" (.bool true))
  | none, false => none

/-- The annotations of an attribute. One that is left out carries that annotation alone. -/
def uses (b : AttributeBinding) : List AnnotationUse :=
  if b.transient then [bindingUse "JsonbTransient"]
  else b.propertyUse?.toList ++ b.types.uses

end AttributeBinding

namespace ClassBinding

/-- What is wrong with an order of properties: it may only name visible attributes, each once. -/
def orderFault? (visible seen : List String) : List String → Option Fault
  | [] => none
  | name :: rest =>
    if !visible.contains name then some (.unknownInOrder name)
    else if seen.contains name then some (.repeatedInOrder name)
    else orderFault? visible (name :: seen) rest

/-- The annotations of a class in which the attributes `visible` can be seen. -/
def uses (visible : List String) (b : ClassBinding) : Except Fault (List AnnotationUse) :=
  match orderFault? visible [] b.propertyOrder with
  | some fault => .error fault
  | none =>
    .ok ((if b.nillable then [bindingUse "JsonbNillable"] else [])
      ++ (if b.propertyOrder.isEmpty then []
        else [(bindingUse "JsonbPropertyOrder").value (.texts b.propertyOrder)])
      ++ b.types.uses ++ (TypeRef.use? "JsonbVisibility" b.visibility).toList)

end ClassBinding

end EntityForge
