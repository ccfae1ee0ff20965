import EntityForge.Java.TypeText

/-!
# Comparing and hashing fields

The expressions by which generated methods compare and hash a field, chosen by the shape of its type. Floating-
point numbers are compared and hashed by their bits, arrays by their elements, references by their own methods.
-/

namespace EntityForge.Java

/-- An expression of a generated method. -/
inductive Expression where
  /-- A field of an object. -/
  | field (receiver name : String)
  /-- A static method applied to one value. -/
  | apply (method : String) (argument : Expression)
  /-- A static method applied to two values. -/
  | apply₂ (method : String) (first second : Expression)
  /-- One for true and zero for false. -/
  | bit (condition : Expression)
  /-- The upper half of 64 bits laid over the lower half. -/
  | folded (wide : Expression)
  /-- Whether two values differ. -/
  | unequal (left right : Expression)
  | negation (condition : Expression)
  deriving DecidableEq

namespace Expression

/-- The expression as it is written. -/
def text : Expression → String
  | .field receiver name => receiver ++ "." ++ name
  | .apply method argument => method ++ "(" ++ argument.text ++ ")"
  | .apply₂ method first second => method ++ "(" ++ first.text ++ ", " ++ second.text ++ ")"
  | .bit condition => "(" ++ condition.text ++ " ? 1 : 0)"
  | .folded wide => "(int) (" ++ wide.text ++ " ^ (" ++ wide.text ++ " >>> 32))"
  | .unequal left right => left.text ++ " != " ++ right.text
  | .negation condition => "!" ++ condition.text

/-- The field of the object that a method is called on. -/
def this (name : String) : Expression :=
  .field "this" name

/-- The field of the object compared with. -/
def other (name : String) : Expression :=
  .field "other" name

end Expression

namespace Floating

/-- The method that gives the bits of a number. -/
def bitsMethod : Floating → String
  | .float => "Float.floatToIntBits"
  | .double => "Double.doubleToLongBits"

end Floating

namespace Shape

/-- The method that compares two values of references of this shape. -/
def equalsMethod : Shape → String
  | .array false => "java.util.Arrays.equals"
  | .array true => "java.util.Arrays.deepEquals"
  | _ => "java.util.Objects.equals"

/-- The method that hashes a reference of this shape. -/
def hashMethod : Shape → String
  | .array false => "java.util.Arrays.hashCode"
  | .array true => "java.util.Arrays.deepHashCode"
  | _ => "java.util.Objects.hashCode"

/-- The condition that a field differs between two objects. -/
def differs (shape : Shape) (field : String) : Expression :=
  let this := Expression.this field
  let other := Expression.other field
  match shape with
  | .primitive _ => .unequal this other
  | .floating type => .unequal (.apply type.bitsMethod this) (.apply type.bitsMethod other)
  | .array _ | .object => .negation (.apply₂ shape.equalsMethod this other)

/-- What a field contributes to a hash code. -/
def hashTerm (shape : Shape) (field : String) : Expression :=
  let this := Expression.this field
  match shape with
  | .primitive .boolean => .bit this
  | .primitive .long => .folded this
  | .primitive _ => this
  | .floating .float => .apply Floating.float.bitsMethod this
  | .floating .double => .folded (.apply Floating.double.bitsMethod this)
  | .array _ | .object => .apply shape.hashMethod this

end Shape

end EntityForge.Java
