import EntityForge.Generation.Error
import EntityForge.Java.Identifier
import EntityForge.Java.Statement

/-!
# Equality, hash codes and texts

The bodies of `equals`, `hashCode` and `toString` over chosen fields, with code written by hand around them.
Without fields and without such code there is no body.
-/

namespace EntityForge

open Java

/-- A field that takes part in a method. -/
structure Member where
  name : String
  shape : Shape
  deriving DecidableEq

/-- The fields that take part in a method, and the code around them. -/
structure MethodInput where
  members : List Member
  preCode : Option String
  postCode : Option String
  deriving DecidableEq

/-- The numbers that a hash code starts with and is multiplied by. -/
structure PrimePair where
  seed : Nat
  multiplier : Nat
  deriving DecidableEq

namespace MethodInput

/-- The code before the fields, trimmed, unless it is blank. -/
def pre (input : MethodInput) : Option String :=
  (Text.nonBlank? input.preCode).map Text.trim

/-- The code after the fields, trimmed, unless it is blank. -/
def post (input : MethodInput) : Option String :=
  (Text.nonBlank? input.postCode).map Text.trim

/-- Whether there is nothing to generate. -/
def isEmpty (input : MethodInput) : Bool :=
  input.members.isEmpty && input.pre.isNone && input.post.isNone

/-- The statements of the code before the fields. -/
def preStatements (input : MethodInput) : List Statement :=
  (input.pre.map .code).toList

/-- The statements of the code after the fields. -/
def postStatements (input : MethodInput) : List Statement :=
  (input.post.map .code).toList

/-- What is wrong with the names: the class and all members have to be identifiers. -/
def fault? (className : String) (input : MethodInput) : Option Fault :=
  if !isIdentifier className then some (.className className)
  else (input.members.find? fun m => !isIdentifier m.name).map fun m => .memberName m.name

/-- The statements of `equals`. -/
def equalsStatements (className : String) (input : MethodInput) : List Statement :=
  [.refuseIf .isNull, .refuseIf .otherClass, .castOther className] ++ input.preStatements
    ++ input.members.map (fun m => .refuseIf (.holds (m.shape.differs m.name))) ++ input.postStatements
    ++ [.returnTrue]

/-- The statements of `hashCode`. -/
def hashCodeStatements (primes : PrimePair) (input : MethodInput) : List Statement :=
  [.startHash primes.seed] ++ input.preStatements
    ++ input.members.map (fun m => .mixHash primes.multiplier (m.shape.hashTerm m.name))
    ++ input.postStatements ++ [.returnHash]

/-- The parts of the text after its opening `before`: names and values of the fields, separated by commas, and
the closing brace. -/
def textParts (before : String) : List String → List TextPart
  | [] => [.literal (before ++ "\x7d")]
  | [name] => [.literal (before ++ name ++ "="), .variable name, .literal "\x7d"]
  | name :: names => [.literal (before ++ name ++ "="), .variable name] ++ textParts ", " names

/-- The statements of `toString`. -/
def toStringStatements (className : String) (input : MethodInput) : List Statement :=
  input.preStatements ++ input.postStatements
    ++ [.returnText (textParts (className ++ "\x7b") (input.members.map (·.name)))]

/-- The body made of statements, if there is anything to generate and the names are right. -/
def body (className : String) (input : MethodInput) (statements : List Statement) :
    Except Fault (Option (List Statement)) :=
  if input.isEmpty then .ok none
  else
    match input.fault? className with
    | some fault => .error fault
    | none => .ok (some statements)

/-- The body of `equals`. -/
def equalsBody (className : String) (input : MethodInput) : Except Fault (Option (List Statement)) :=
  input.body className (input.equalsStatements className)

/-- The body of `hashCode`. -/
def hashCodeBody (className : String) (input : MethodInput) (primes : PrimePair) :
    Except Fault (Option (List Statement)) :=
  input.body className (input.hashCodeStatements primes)

/-- Whether the body of `hashCode` uses primes: there is something to generate and the names are right. -/
def usesPrimes (className : String) (input : MethodInput) : Bool :=
  !input.isEmpty && (input.fault? className).isNone

/-- The body of `toString`. -/
def toStringBody (className : String) (input : MethodInput) : Except Fault (Option (List Statement)) :=
  input.body className (input.toStringStatements className)

end MethodInput

end EntityForge
