import EntityForge.Text.Spelled

/-!
# Annotations and code written by hand

A metamodel may carry annotations and pieces of code with the place where each belongs. Their text is never
interpreted, except that code at an import place becomes a complete import statement.
-/

namespace EntityForge

/-- An annotation written by hand, for a place of type `L`; its leading at sign may be left out. -/
structure AnnotationAt (L : Type) where
  name : String
  location : L
  enabled : Bool
  deriving DecidableEq

/-- A piece of code written by hand, for a place of type `L`. -/
structure SnippetAt (L : Type) where
  value : String
  location : L
  enabled : Bool
  deriving DecidableEq

/-- The enabled annotation for a place. -/
def AnnotationAt.of {L : Type} (name : String) (location : L) : AnnotationAt L :=
  { name, location, enabled := true }

/-- The enabled piece of code for a place. -/
def SnippetAt.of {L : Type} (value : String) (location : L) : SnippetAt L :=
  { value, location, enabled := true }

/-- Where an annotation of a class goes. -/
inductive ClassAnnotationPlace where
  | type
  deriving DecidableEq

instance : Spelled ClassAnnotationPlace where
  values := [.type]
  spelling
    | .type => "TYPE"
  find_spelling := by intro a; cases a; decide

/-- Where an annotation of an attribute goes. -/
inductive AttributeAnnotationPlace where
  /-- On the field. -/
  | property
  | getter
  | setter
  deriving DecidableEq

instance : Spelled AttributeAnnotationPlace where
  values := [.property, .getter, .setter]
  spelling
    | .property => "PROPERTY"
    | .getter => "GETTER"
    | .setter => "SETTER"
  find_spelling := by intro a; cases a <;> decide

/-- Where code goes in a class, in the order of the source. -/
inductive ClassPlace where
  | beforePackage
  | importStatement
  | typeJavadoc
  | beforeClass
  | beforeField
  | afterField
  | beforeMethod
  | afterMethod
  | afterClass
  deriving DecidableEq

instance : Spelled ClassPlace where
  values :=
    [.beforePackage, .importStatement, .typeJavadoc, .beforeClass, .beforeField, .afterField, .beforeMethod,
      .afterMethod, .afterClass]
  spelling
    | .beforePackage => "BEFORE_PACKAGE"
    | .importStatement => "IMPORT"
    | .typeJavadoc => "TYPE_JAVADOC"
    | .beforeClass => "BEFORE_CLASS"
    | .beforeField => "BEFORE_FIELD"
    | .afterField => "AFTER_FIELD"
    | .beforeMethod => "BEFORE_METHOD"
    | .afterMethod => "AFTER_METHOD"
    | .afterClass => "AFTER_CLASS"
  find_spelling := by intro a; cases a <;> decide

/-- Where code goes around the field and the accessors of an attribute. -/
inductive AttributePlace where
  | importStatement
  | propertyJavadoc
  | beforeProperty
  | afterProperty
  | getterJavadoc
  | beforeGetter
  | afterGetter
  /-- The first statements of the getter. -/
  | preGetter
  /-- The statements just before the getter returns. -/
  | postGetter
  | setterJavadoc
  | beforeSetter
  | afterSetter
  | preSetter
  | postSetter
  deriving DecidableEq

instance : Spelled AttributePlace where
  values :=
    [.importStatement, .propertyJavadoc, .beforeProperty, .afterProperty, .getterJavadoc, .beforeGetter,
      .afterGetter, .preGetter, .postGetter, .setterJavadoc, .beforeSetter, .afterSetter, .preSetter,
      .postSetter]
  spelling
    | .importStatement => "IMPORT"
    | .propertyJavadoc => "PROPERTY_JAVADOC"
    | .beforeProperty => "BEFORE_PROPERTY"
    | .afterProperty => "AFTER_PROPERTY"
    | .getterJavadoc => "GETTER_JAVADOC"
    | .beforeGetter => "BEFORE_GETTER"
    | .afterGetter => "AFTER_GETTER"
    | .preGetter => "PRE_GETTER"
    | .postGetter => "POST_GETTER"
    | .setterJavadoc => "SETTER_JAVADOC"
    | .beforeSetter => "BEFORE_SETTER"
    | .afterSetter => "AFTER_SETTER"
    | .preSetter => "PRE_SETTER"
    | .postSetter => "POST_SETTER"
  find_spelling := by intro a; cases a <;> decide

/-- Places of code, with the one that holds import statements told apart. -/
class CodePlace (L : Type) where
  isImport : L → Bool

instance : CodePlace ClassPlace where
  isImport place := place = .importStatement

instance : CodePlace AttributePlace where
  isImport place := place = .importStatement

end EntityForge
