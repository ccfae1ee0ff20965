import EntityForge.JavaClass.Basic
import EntityForge.Text.Sorted

/-!
# Imports of a class

The types that a class imports: those its annotations need, its superclass and its interfaces, and the types by which
changes are reported. Types of `java.lang` and of the package of the class need no import.
-/

namespace EntityForge.JavaClass

/-- All annotations of the class and of its fields. -/
def uses (c : JavaClass) : List Java.AnnotationUse :=
  c.persistence ++ c.binding ++ c.fields.flatMap (·.uses)

/-- The types by which the changes of fields are reported. -/
def changeTypes (c : JavaClass) : List String :=
  (if c.propertyChangeSupport then
    ["java.beans.PropertyChangeSupport", "java.beans.PropertyChangeListener"] else [])
    ++ (if c.vetoableChangeSupport then
      ["java.beans.VetoableChangeSupport", "java.beans.VetoableChangeListener",
        "java.beans.PropertyVetoException"] else [])

/-- All types that the annotations and the head of the class name, and those that report changes. -/
def namedTypes (c : JavaClass) : List String :=
  c.uses.flatMap (·.code.imports) ++ c.interfaces ++ c.superclass.toList ++ c.changeTypes

/-- Whether a type has to be imported: it lies in a package that is neither `java.lang` nor that of the class. -/
def needsImport (c : JavaClass) (type : String) : Bool :=
  match Text.beforeLast? '.' type with
  | none => false
  | some package => package != "java.lang" && package != c.package

/-- The types that the class imports, in ascending order. -/
def requiredImports (c : JavaClass) : List String :=
  Text.sortedSet (c.namedTypes.filter c.needsImport)

/-- The import statements of the source, in ascending order: those of the required types and those written by
hand. -/
def importStatements (c : JavaClass) : List String :=
  Text.sortedSet (c.requiredImports.map (fun type => "import " ++ type ++ ";")
    ++ c.snippets.textsAt .importStatement ++ c.fields.flatMap (·.snippets.textsAt .importStatement))

end EntityForge.JavaClass
