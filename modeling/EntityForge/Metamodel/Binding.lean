import EntityForge.Metamodel.Reference
import EntityForge.Text.Blank

/-!
# Binding settings

How classes and attributes are bound to documents of the interchange format.
-/

namespace EntityForge

/-- A date or number format. -/
structure Format where
  value : Option String
  locale : Option String
  deriving DecidableEq

namespace Format

/-- The format of a pattern, without a locale. -/
def pattern (value : String) : Format :=
  { value := some value, locale := none }

/-- Whether neither the pattern nor the locale says anything. -/
def isEmpty (f : Format) : Bool :=
  f.value.all Text.isBlank && f.locale.all Text.isBlank

end Format

/-- The formats and converters that classes and attributes share. -/
structure BindingTypes where
  dateFormat : Option Format
  numberFormat : Option Format
  typeAdapter : Option TypeRef
  typeDeserializer : Option TypeRef
  typeSerializer : Option TypeRef
  deriving DecidableEq

/-- No format and no converter. -/
def BindingTypes.unset : BindingTypes :=
  { dateFormat := none, numberFormat := none, typeAdapter := none, typeDeserializer := none,
    typeSerializer := none }

/-- The binding of a class. -/
structure ClassBinding where
  nillable : Bool
  /-- Attribute names in the order of the document. -/
  propertyOrder : List String
  types : BindingTypes
  /-- The strategy that decides which properties are bound. -/
  visibility : Option TypeRef
  deriving DecidableEq

/-- The binding of a class that sets nothing. -/
def ClassBinding.unset : ClassBinding :=
  { nillable := false, propertyOrder := [], types := .unset, visibility := none }

/-- The binding of an attribute. -/
structure AttributeBinding where
  /-- Leaves the attribute out, whatever else is set. -/
  transient : Bool
  /-- The name of the property in the document. -/
  property : Option String
  nillable : Bool
  types : BindingTypes
  deriving DecidableEq

/-- The binding of an attribute that sets nothing. -/
def AttributeBinding.unset : AttributeBinding :=
  { transient := false, property := none, nillable := false, types := .unset }

end EntityForge
