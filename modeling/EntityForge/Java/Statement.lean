import EntityForge.Java.Expression
import EntityForge.Java.StringLiteral

/-!
# Statements of generated methods

The bodies of the generated methods are lists of these statements, each written as one or more lines.
-/

namespace EntityForge.Java

/-- A condition under which an object is not equal to another. -/
inductive Condition where
  /-- The other object is missing. -/
  | isNull
  /-- The other object is of another class. -/
  | otherClass
  | holds (condition : Expression)
  deriving DecidableEq

/-- The condition as it is written. -/
def Condition.text : Condition → String
  | .isNull => "obj == null"
  | .otherClass => "getClass() != obj.getClass()"
  | .holds condition => condition.text

/-- A part of a text that is put together: a literal, or the value of a variable. -/
inductive TextPart where
  | literal (value : String)
  | variable (name : String)
  deriving DecidableEq

/-- The part as it is written. -/
def TextPart.text : TextPart → String
  | .literal value => quote value
  | .variable name => name

/-- A statement of a generated method. -/
inductive Statement where
  /-- Returns false if the condition holds. -/
  | refuseIf (condition : Condition)
  /-- Takes the other object as one of the class. -/
  | castOther (className : String)
  /-- Code written by hand. -/
  | code (raw : String)
  /-- Starts a hash code with a number. -/
  | startHash (seed : Nat)
  /-- Multiplies the hash code and adds a term. -/
  | mixHash (multiplier : Nat) (term : Expression)
  | returnTrue
  | returnHash
  /-- Returns the parts put together. -/
  | returnText (parts : List TextPart)
  deriving DecidableEq

/-- The lines of a statement. Code written by hand counts as one. -/
def Statement.lines : Statement → List String
  | .refuseIf condition => ["if (" ++ condition.text ++ ") \x7b", "    return false;", "\x7d"]
  | .castOther className => ["final " ++ className ++ " other = (" ++ className ++ ") obj;"]
  | .code raw => [raw]
  | .startHash seed => ["int hash = " ++ toString seed ++ ";"]
  | .mixHash multiplier term => ["hash = " ++ toString multiplier ++ " * hash + " ++ term.text ++ ";"]
  | .returnTrue => ["return true;"]
  | .returnHash => ["return hash;"]
  | .returnText parts => ["return " ++ " + ".intercalate (parts.map TextPart.text) ++ ";"]

/-- The body of a method as it is written. It names all types in full and so needs no import. -/
def bodyText (statements : List Statement) : String :=
  "\n".intercalate (statements.flatMap Statement.lines)

end EntityForge.Java
