import EntityForge.Java.Code
import EntityForge.Java.StringLiteral

/-!
# Annotations

An annotation is a name and arguments; `text` writes it. Without arguments no parentheses are written.
-/

namespace EntityForge.Java

/-- The value of an argument. -/
inductive Value where
  /-- A string literal. -/
  | text (value : String)
  | int (value : Int)
  | bool (value : Bool)
  /-- A constant of an enumeration. -/
  | constant (type name : String)
  /-- The class object of a type. -/
  | classLiteral (type : String)
  /-- An array of string literals. -/
  | texts (values : List String)
  /-- An array of constants of one enumeration. -/
  | constants (type : String) (names : List String)
  /-- Code that is written as it is. -/
  | code (raw : String)
  deriving DecidableEq

/-- Texts between braces, with commas between them. -/
def braced (items : List String) : String :=
  "\x7b" ++ ", ".intercalate items ++ "\x7d"

/-- The value as it is written. -/
def Value.written : Value → String
  | .text value => quote value
  | .int value => toString value
  | .bool true => "true"
  | .bool false => "false"
  | .constant type name => type ++ "." ++ name
  | .classLiteral type => type ++ ".class"
  | .texts values => braced (values.map quote)
  | .constants type names => braced (names.map fun name => type ++ "." ++ name)
  | .code raw => raw

/-- An argument, under its name or as the only value. -/
structure Argument where
  key : Option String
  value : Value
  deriving DecidableEq

/-- The argument as it is written. -/
def Argument.text (a : Argument) : String :=
  match a.key with
  | some key => key ++ "=" ++ a.value.written
  | none => a.value.written

/-- An annotation as it is used. -/
structure AnnotationUse where
  /-- The package of its type. -/
  package : String
  /-- The name of its type. -/
  name : String
  /-- The arguments, in their order. -/
  arguments : List Argument
  /-- The types that the arguments name, in full. -/
  types : List String
  deriving DecidableEq

namespace AnnotationUse

/-- The annotation of a package without arguments. -/
def plain (package name : String) : AnnotationUse :=
  { package, name, arguments := [], types := [] }

/-- The annotation with one more argument under a name. -/
def arg (use : AnnotationUse) (key : String) (value : Value) : AnnotationUse :=
  { use with arguments := use.arguments ++ [{ key := some key, value }] }

/-- The annotation with one more argument without a name. -/
def value (use : AnnotationUse) (value : Value) : AnnotationUse :=
  { use with arguments := use.arguments ++ [{ key := none, value }] }

/-- The annotation with an argument under a name, if there is a value for it. -/
def arg? (use : AnnotationUse) (key : String) : Option Value → AnnotationUse
  | some value => use.arg key value
  | none => use

/-- The argument of a key, if there is a value for it. -/
def argument? (key : String) (value : Option Value) : List Argument :=
  (value.map fun value => { key := some key, value }).toList

/-- The annotation with one more type that its arguments name. -/
def naming (use : AnnotationUse) (type : String) : AnnotationUse :=
  { use with types := use.types ++ [type] }

/-- The annotation as it is written. -/
def text (use : AnnotationUse) : String :=
  if use.arguments.isEmpty then "@" ++ use.name
  else "@" ++ use.name ++ "(" ++ ", ".intercalate (use.arguments.map Argument.text) ++ ")"

/-- The annotation as code: it needs its own type first and the types of its arguments after it. -/
def code (use : AnnotationUse) : Code :=
  ((Code.ofText use.text).needing (use.package ++ "." ++ use.name)).needingAll use.types

/-- The code of an annotation needs its own type and the types of its arguments, and no other. -/
theorem mem_imports_code {use : AnnotationUse} {type : String} :
    type ∈ use.code.imports ↔ type = use.package ++ "." ++ use.name ∨ type ∈ use.types := by
  rw [code, Code.mem_imports_needingAll, Code.mem_imports_needing]
  simp [Code.ofText]

section Parts

variable (use : AnnotationUse) (key : String)

@[simp]
theorem name_arg (v : Value) : (use.arg key v).name = use.name :=
  rfl

@[simp]
theorem name_value (v : Value) : (use.value v).name = use.name :=
  rfl

@[simp]
theorem name_naming (type : String) : (use.naming type).name = use.name :=
  rfl

@[simp]
theorem name_arg? (v : Option Value) : (use.arg? key v).name = use.name := by
  cases v <;> rfl

@[simp]
theorem package_arg? (v : Option Value) : (use.arg? key v).package = use.package := by
  cases v <;> rfl

@[simp]
theorem types_arg? (v : Option Value) : (use.arg? key v).types = use.types := by
  cases v <;> rfl

/-- A type may be stated before or after an argument. -/
theorem naming_arg? (v : Option Value) (type : String) :
    (use.arg? key v).naming type = (use.naming type).arg? key v := by
  cases v <;> rfl

theorem arguments_arg? (v : Option Value) : (use.arg? key v).arguments = use.arguments ++ argument? key v := by
  cases v with
  | none => simp [arg?, argument?]
  | some v => simp [arg?, arg, argument?]

end Parts

end AnnotationUse

end EntityForge.Java
