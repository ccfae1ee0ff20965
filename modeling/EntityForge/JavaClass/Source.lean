import EntityForge.JavaClass.Imports
import EntityForge.Text.Lines
import EntityForge.Text.Uppercase

/-!
# The source of a class

`lines` lays a `JavaClass` out as lines of source, and `source` is their text. The body of the class is a list of
sections with a blank line between them; sections without lines are left out.
-/

namespace EntityForge

open Java

namespace Layout

/-- The line moved in by four blanks for each level. An empty line stays empty. -/
def indent (depth : Nat) (line : String) : String :=
  if line = "" then "" else String.ofList (List.replicate (4 * depth) ' ') ++ line

/-- The lines of a text, each moved in. -/
def block (depth : Nat) (text : String) : List String :=
  (Text.lines text).map (indent depth)

/-- The lines of several texts, each moved in. -/
def blocks (depth : Nat) (texts : List String) : List String :=
  texts.flatMap (block depth)

/-- The sections with a blank line between any two. -/
def joinSections : List (List String) → List String
  | [] => []
  | [lines] => lines
  | lines :: rest => lines ++ "" :: joinSections rest

end Layout

open Layout

namespace JavaField

/-- The comment above the field: the lines of its description, unless it is blank. -/
def commentLines (f : JavaField) : List String :=
  match Text.nonBlank? f.description with
  | none => []
  | some description =>
    ["/**"] ++ (Text.lines description).map (fun line => Text.trimEnd (" * " ++ line)) ++ [" */"]

/-- An argument of a type with constraints before it. -/
def constrained (constraints : List AnnotationUse) (argument : String) : String :=
  " ".intercalate (constraints.map (·.text) ++ [argument])

/-- The type as it is declared: constraints on keys and values stand before the arguments. -/
def declaredType (f : JavaField) : String :=
  if f.keyConstraints.isEmpty && f.valueConstraints.isEmpty then f.type
  else
    match typeArguments? f.type with
    | none => f.type
    | some (raw, arguments) =>
      let arguments := match arguments with
        | [key, value] => [constrained f.keyConstraints key, constrained f.valueConstraints value]
        | [value] => [constrained f.valueConstraints value]
        | others => others
      raw ++ "<" ++ ", ".intercalate arguments ++ ">"

/-- The declaration of the field. -/
def declaration (f : JavaField) : String :=
  f.access.modifier ++ f.declaredType ++ " " ++ f.name
    ++ (match Text.nonBlank? f.defaultValue with
      | some value => " = " ++ Text.trim value
      | none => "")
    ++ ";"

/-- The lines of the field. -/
def fieldLines (f : JavaField) : List String :=
  f.commentLines.map (indent 1) ++ blocks 1 (f.snippets.textsAt .propertyJavadoc)
    ++ blocks 1 (f.snippets.textsAt .beforeProperty)
    ++ (f.persistence ++ f.constraints ++ f.binding).map (fun use => indent 1 use.text)
    ++ blocks 1 (f.annotations.textsAt .property) ++ [indent 1 f.declaration]
    ++ blocks 1 (f.snippets.textsAt .afterProperty)

/-- The name of the getter. -/
def getterName (f : JavaField) : String :=
  (if f.shape = .primitive .boolean then "is" else "get") ++ Text.capitalize f.name

/-- The name of the setter. -/
def setterName (f : JavaField) : String :=
  "set" ++ Text.capitalize f.name

/-- The lines of the getter. -/
def getterLines (f : JavaField) : List String :=
  blocks 1 (f.snippets.textsAt .getterJavadoc) ++ blocks 1 (f.snippets.textsAt .beforeGetter)
    ++ blocks 1 (f.annotations.textsAt .getter)
    ++ [indent 1 ("public " ++ f.type ++ " " ++ f.getterName ++ "() \x7b")]
    ++ blocks 2 (f.snippets.textsAt .preGetter) ++ blocks 2 (f.snippets.textsAt .postGetter)
    ++ [indent 2 ("return this." ++ f.name ++ ";"), indent 1 "\x7d"]
    ++ blocks 1 (f.snippets.textsAt .afterGetter)

/-- The variable that keeps the value before a change. -/
def oldName (f : JavaField) : String :=
  "old" ++ Text.capitalize f.name

/-- The statements of the setter: the change is offered for refusal before it is made and reported after it. -/
def setterStatements (f : JavaField) : List String :=
  let change := "(\"" ++ f.name ++ "\", " ++ f.oldName ++ ", " ++ f.name ++ ");"
  (if f.propertyChangeSupport || f.vetoableChangeSupport then
    [f.type ++ " " ++ f.oldName ++ " = this." ++ f.name ++ ";"] else [])
    ++ (if f.vetoableChangeSupport then ["vetoableChangeSupport.fireVetoableChange" ++ change] else [])
    ++ ["this." ++ f.name ++ " = " ++ f.name ++ ";"]
    ++ (if f.propertyChangeSupport then ["propertyChangeSupport.firePropertyChange" ++ change] else [])

/-- The lines of the setter. -/
def setterLines (f : JavaField) : List String :=
  let throws := if f.vetoableChangeSupport then " throws PropertyVetoException" else ""
  blocks 1 (f.snippets.textsAt .setterJavadoc) ++ blocks 1 (f.snippets.textsAt .beforeSetter)
    ++ blocks 1 (f.annotations.textsAt .setter)
    ++ [indent 1 ("public void " ++ f.setterName ++ "(" ++ f.type ++ " " ++ f.name ++ ")" ++ throws
      ++ " \x7b")]
    ++ blocks 2 (f.snippets.textsAt .preSetter) ++ f.setterStatements.map (indent 2)
    ++ blocks 2 (f.snippets.textsAt .postSetter) ++ [indent 1 "\x7d"]
    ++ blocks 1 (f.snippets.textsAt .afterSetter)

end JavaField

namespace JavaClass

/-- The line that opens the class. -/
def header (c : JavaClass) : String :=
  "public " ++ (if c.isAbstract then "abstract " else "") ++ "class " ++ c.name
    ++ (match c.superclassSimpleName with
      | some name => " extends " ++ name
      | none => "")
    ++ (if c.interfaces.isEmpty then ""
      else " implements " ++ ", ".intercalate (c.interfaces.map simpleName))
    ++ " \x7b"

/-- The lines of the package and of the imports, each group with a blank line after it. -/
def packageLines (c : JavaClass) : List String :=
  (if c.package = "" then [] else ["package " ++ c.package ++ ";", ""])
    ++ (if c.importStatements.isEmpty then [] else c.importStatements ++ [""])

/-- The lines up to the one that opens the class. -/
def preambleLines (c : JavaClass) : List String :=
  blocks 0 (c.snippets.textsAt .beforePackage) ++ c.packageLines
    ++ blocks 0 (c.snippets.textsAt .typeJavadoc) ++ blocks 0 (c.snippets.textsAt .beforeClass)
    ++ (c.persistence ++ c.binding).map (·.text) ++ blocks 0 (c.annotations.textsAt .type) ++ [c.header]

/-- The fields that report changes. -/
def changeFieldLines (c : JavaClass) : List String :=
  (if c.propertyChangeSupport then
    [indent 1 ("private final transient PropertyChangeSupport propertyChangeSupport"
      ++ " = new PropertyChangeSupport(this);")] else [])
    ++ (if c.vetoableChangeSupport then
      [indent 1 ("private final transient VetoableChangeSupport vetoableChangeSupport"
        ++ " = new VetoableChangeSupport(this);")] else [])

/-- The lines of all fields. -/
def fieldSection (c : JavaClass) : List String :=
  blocks 1 (c.snippets.textsAt .beforeField) ++ c.changeFieldLines
    ++ joinSections (c.fields.map (·.fieldLines)) ++ blocks 1 (c.snippets.textsAt .afterField)

/-- The lines of a method with the given signature, if it has a body. -/
def methodSection (signature : String) : Option (List Statement) → List String
  | none => []
  | some body => [indent 1 "@Override", indent 1 (signature ++ " \x7b")] ++ block 2 (bodyText body) ++ [indent 1 "\x7d"]

/-- The lines of a method that adds or removes a listener. -/
def listenerSection (verb listener support : String) : List String :=
  [indent 1 ("public void " ++ verb ++ listener ++ "(" ++ listener ++ " listener) \x7b"),
    indent 2 (support ++ "." ++ verb ++ listener ++ "(listener);"), indent 1 "\x7d"]

/-- The methods that add and remove listeners. -/
def listenerSections (c : JavaClass) : List (List String) :=
  (if c.propertyChangeSupport then
    [listenerSection "add" "PropertyChangeListener" "propertyChangeSupport",
      listenerSection "remove" "PropertyChangeListener" "propertyChangeSupport"] else [])
    ++ (if c.vetoableChangeSupport then
      [listenerSection "add" "VetoableChangeListener" "vetoableChangeSupport",
        listenerSection "remove" "VetoableChangeListener" "vetoableChangeSupport"] else [])

/-- The sections of the body, in their order. -/
def sections (c : JavaClass) : List (List String) :=
  [c.fieldSection] ++ c.constructors.map (fun constructor => block 1 (constructor.signature c.name).text)
    ++ [blocks 1 (c.snippets.textsAt .beforeMethod)]
    ++ c.fields.flatMap (fun f => [f.getterLines, f.setterLines])
    ++ [methodSection "public boolean equals(Object obj)" c.equalsMethod,
      methodSection "public int hashCode()" c.hashCodeMethod,
      methodSection "public String toString()" c.toStringMethod]
    ++ c.listenerSections ++ [blocks 1 (c.snippets.textsAt .afterMethod)]

/-- The lines of the source. -/
def lines (c : JavaClass) : List String :=
  c.preambleLines ++ joinSections (c.sections.filter (!·.isEmpty)) ++ ["\x7d"]
    ++ blocks 0 (c.snippets.textsAt .afterClass)

/-- The source of the class. -/
def source (c : JavaClass) : String :=
  Text.unlines c.lines

end JavaClass

end EntityForge
