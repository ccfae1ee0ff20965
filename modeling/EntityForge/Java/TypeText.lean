import EntityForge.Text.Blank
import EntityForge.Text.Split

/-!
# Types as they are written

`Shape.ofType` tells from the text of a type how its values are compared and hashed, and `typeArguments?` takes
a parameterized type apart.
-/

namespace EntityForge.Java

/-- The primitive types that hold no floating-point numbers. -/
inductive Primitive where
  | boolean
  | byte
  | char
  | short
  | int
  | long
  deriving DecidableEq

/-- The floating-point types. -/
inductive Floating where
  | float
  | double
  deriving DecidableEq

/-- How the values of a type are compared and hashed. -/
inductive Shape where
  | primitive (type : Primitive)
  | floating (type : Floating)
  /-- Arrays; those of arrays are nested. -/
  | array (nested : Bool)
  /-- Every other type of references. -/
  | object
  deriving DecidableEq

namespace Shape

/-- Whether the type, read from its end, ends in brackets. -/
def endsInBrackets : List Char → Bool
  | ']' :: '[' :: _ => true
  | _ => false

/-- The shape of a type that is a name. -/
def ofName : String → Shape
  | "boolean" => .primitive .boolean
  | "byte" => .primitive .byte
  | "char" => .primitive .char
  | "short" => .primitive .short
  | "int" => .primitive .int
  | "long" => .primitive .long
  | "float" => .floating .float
  | "double" => .floating .double
  | _ => .object

/-- The shape of the type with the given characters. Brackets at the end make an array, nested when brackets
come before them; three dots at the end make an array as well. -/
def ofChars (cs : List Char) : Shape :=
  let trimmed := Text.trimChars cs
  match trimmed.reverse with
  | ']' :: '[' :: element => .array (endsInBrackets (element.dropWhile Text.isSpace))
  | '.' :: '.' :: '.' :: _ => .array false
  | _ => ofName (String.ofList trimmed)

/-- The shape of a type. -/
def ofType (type : String) : Shape :=
  ofChars type.toList

end Shape

/-! ## Type arguments -/

/-- The text with one more character in its first part. -/
def extendFirst (c : Char) : List (List Char) → List (List Char)
  | [] => [[c]]
  | first :: rest => (c :: first) :: rest

/-- The depth of angle brackets after a character. -/
def depthAfter (depth : Nat) (c : Char) : Nat :=
  if c = '<' then depth + 1 else if c = '>' then depth - 1 else depth

/-- The parts between the commas that stand outside angle brackets. -/
def splitArguments (depth : Nat) : List Char → List (List Char)
  | [] => [[]]
  | c :: rest =>
    if c = ',' ∧ depth = 0 then [] :: splitArguments 0 rest
    else extendFirst c (splitArguments (depthAfter depth c) rest)

/-- What precedes the first angle bracket, and the trimmed arguments up to the last one. -/
def typeArgumentChars? (cs : List Char) : Option (List Char × List (List Char)) := do
  let (raw, rest) ← Text.cutAt? (· == '<') (Text.trimChars cs)
  let inner ← Text.beforeLastChars? '>' rest
  pure (raw, (splitArguments 0 inner).map Text.trimChars)

/-- The raw type and the arguments of a parameterized type. -/
def typeArguments? (type : String) : Option (String × List String) :=
  (typeArgumentChars? type.toList).map fun (raw, arguments) =>
    (String.ofList raw, arguments.map String.ofList)

/-- The number of type arguments, which is zero for a type that is not parameterized. -/
def typeArity (type : String) : Nat :=
  match typeArguments? type with
  | some (_, arguments) => arguments.length
  | none => 0

/-- There is at least one part. -/
theorem splitArguments_ne_nil (depth : Nat) (cs : List Char) : splitArguments depth cs ≠ [] := by
  cases cs with
  | nil => simp [splitArguments]
  | cons c rest =>
    simp only [splitArguments]
    split
    · simp
    · cases splitArguments (depthAfter depth c) rest <;> simp [extendFirst]

end EntityForge.Java
