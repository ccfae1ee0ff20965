import EntityForge.Java.Statement

/-!
# Running generated methods

What the statements of `equals` and `hashCode` do when they are run on objects. Arithmetic on `int` is modulo `2 ^ 32`.
The static methods that they call are those of a `Runtime`, of which nothing is assumed but that what one of them takes
as equal, the one beside it hashes alike.

Running is partial: code written by hand, a text put together, a field that an object does not have, or a number where a
truth value is needed have no result.
-/

namespace EntityForge.Java

variable {F D R K : Type}

/-! ## Values -/

/-- A value of a field. Floating-point numbers and references are of any types. -/
inductive FieldValue (F D R : Type) where
  | boolean (b : Bool)
  | byte (n : BitVec 8)
  | char (n : BitVec 16)
  | short (n : BitVec 16)
  | int (n : BitVec 32)
  | long (n : BitVec 64)
  | float (x : F)
  | double (x : D)
  | reference (r : R)
  deriving DecidableEq

namespace FieldValue

/-- The number that an integral value stands for. Characters have no sign. -/
def integer? : FieldValue F D R → Option Int
  | .byte n => some n.toInt
  | .char n => some n.toNat
  | .short n => some n.toInt
  | .int n => some n.toInt
  | .long n => some n.toInt
  | _ => none

/-- The value as an `int`, which smaller numbers are widened to. -/
def int? : FieldValue F D R → Option (BitVec 32)
  | .long _ => none
  | v => v.integer?.map (BitVec.ofInt 32)

/-- Whether two values differ, as told by the operator on truth values or on integral numbers. -/
def unequal? : FieldValue F D R → FieldValue F D R → Option Bool
  | .boolean a, .boolean b => some (a != b)
  | v, w => do pure ((← v.integer?) != (← w.integer?))

/-- The values of the fields whose types have a shape. -/
inductive OfShape : Shape → FieldValue F D R → Prop
  | boolean (b : Bool) : OfShape (.primitive .boolean) (.boolean b)
  | byte (n : BitVec 8) : OfShape (.primitive .byte) (.byte n)
  | char (n : BitVec 16) : OfShape (.primitive .char) (.char n)
  | short (n : BitVec 16) : OfShape (.primitive .short) (.short n)
  | int (n : BitVec 32) : OfShape (.primitive .int) (.int n)
  | long (n : BitVec 64) : OfShape (.primitive .long) (.long n)
  | float (x : F) : OfShape (.floating .float) (.float x)
  | double (x : D) : OfShape (.floating .double) (.double x)
  | array (nested : Bool) (v : FieldValue F D R) : OfShape (.array nested) v
  | object (v : FieldValue F D R) : OfShape .object v

end FieldValue

/-- The upper half of 64 bits laid over the lower half. -/
def foldBits (n : BitVec 64) : BitVec 32 :=
  (n ^^^ (n >>> 32)).setWidth 32

/-! ## Static methods -/

/-- The static methods that generated code calls, and which objects may be taken as one of a class. Values that a
method takes as equal have one hash. -/
structure Runtime (F D R K : Type) where
  floatToIntBits : F → BitVec 32
  doubleToLongBits : D → BitVec 64
  arraysEquals : FieldValue F D R → FieldValue F D R → Bool
  arraysHashCode : FieldValue F D R → BitVec 32
  arraysDeepEquals : FieldValue F D R → FieldValue F D R → Bool
  arraysDeepHashCode : FieldValue F D R → BitVec 32
  objectsEquals : FieldValue F D R → FieldValue F D R → Bool
  objectsHashCode : FieldValue F D R → BitVec 32
  /-- Whether an object of the class may be taken as one of the class that is written so. -/
  isSubclass : K → String → Bool
  arrays_law : ∀ v w, arraysEquals v w = true → arraysHashCode v = arraysHashCode w
  arraysDeep_law : ∀ v w, arraysDeepEquals v w = true → arraysDeepHashCode v = arraysDeepHashCode w
  objects_law : ∀ v w, objectsEquals v w = true → objectsHashCode v = objectsHashCode w

namespace Runtime

/-- The static method of one value that a name stands for. -/
def unary? (rt : Runtime F D R K) : String → Option (FieldValue F D R → Option (FieldValue F D R))
  | "Float.floatToIntBits" => some fun
    | .float x => some (.int (rt.floatToIntBits x))
    | _ => none
  | "Double.doubleToLongBits" => some fun
    | .double x => some (.long (rt.doubleToLongBits x))
    | _ => none
  | "java.util.Arrays.hashCode" => some fun v => some (.int (rt.arraysHashCode v))
  | "java.util.Arrays.deepHashCode" => some fun v => some (.int (rt.arraysDeepHashCode v))
  | "java.util.Objects.hashCode" => some fun v => some (.int (rt.objectsHashCode v))
  | _ => none

/-- The static method of two values that a name stands for. -/
def binary? (rt : Runtime F D R K) : String → Option (FieldValue F D R → FieldValue F D R → Bool)
  | "java.util.Arrays.equals" => some rt.arraysEquals
  | "java.util.Arrays.deepEquals" => some rt.arraysDeepEquals
  | "java.util.Objects.equals" => some rt.objectsEquals
  | _ => none

end Runtime

/-! ## Objects and frames -/

/-- An object: its class when the program runs, and the values of its fields. -/
structure Instance (F D R K : Type) where
  type : K
  field : String → Option (FieldValue F D R)

/-- The variables of a running method. An object that is `none` is missing. -/
structure Frame (F D R K : Type) where
  /-- The object that the method is called on. -/
  this : Instance F D R K
  /-- The object that the method is given. -/
  obj : Option (Instance F D R K)
  /-- That object, taken as one of the class. -/
  other : Option (Instance F D R K)
  hash : Option (BitVec 32)

namespace Frame

/-- The variables when `equals` is called. -/
def ofEquals (this : Instance F D R K) (obj : Option (Instance F D R K)) : Frame F D R K :=
  { this, obj, other := none, hash := none }

/-- The variables of `equals` when the object has been taken as one of the class. -/
def ofCast (this other : Instance F D R K) : Frame F D R K :=
  { ofEquals this (some other) with other := some other }

/-- The variables when `hashCode` is called. -/
def ofHashCode (this : Instance F D R K) : Frame F D R K :=
  { this, obj := none, other := none, hash := none }

/-- The object in a variable. -/
def object? (frame : Frame F D R K) : String → Option (Instance F D R K)
  | "this" => some frame.this
  | "other" => frame.other
  | _ => none

end Frame

/-! ## Running -/

/-- The value of an expression. -/
def Expression.eval (rt : Runtime F D R K) (frame : Frame F D R K) :
    Expression → Option (FieldValue F D R)
  | .field receiver name => do (← frame.object? receiver).field name
  | .apply method argument => do (← rt.unary? method) (← argument.eval rt frame)
  | .apply₂ method first second => do
    pure (.boolean ((← rt.binary? method) (← first.eval rt frame) (← second.eval rt frame)))
  | .bit condition => do
    match ← condition.eval rt frame with
    | .boolean b => some (.int (if b then 1 else 0))
    | _ => none
  | .folded wide => do
    match ← wide.eval rt frame with
    | .long n => some (.int (foldBits n))
    | _ => none
  | .unequal left right => do
    pure (.boolean (← (← left.eval rt frame).unequal? (← right.eval rt frame)))
  | .negation condition => do
    match ← condition.eval rt frame with
    | .boolean b => some (.boolean !b)
    | _ => none

/-- Whether a condition holds. The class of a missing object cannot be asked for. -/
def Condition.eval [DecidableEq K] (rt : Runtime F D R K) (frame : Frame F D R K) :
    Condition → Option Bool
  | .isNull => some frame.obj.isNone
  | .otherClass => do
    let obj ← frame.obj
    pure (decide (frame.this.type ≠ obj.type))
  | .holds condition => do
    match ← condition.eval rt frame with
    | .boolean b => some b
    | _ => none

/-- What a statement leads to: the statements after it are run, or the method returns. -/
inductive Effect (F D R K : Type) where
  | next (frame : Frame F D R K)
  | returns (value : FieldValue F D R)

/-- The effect of a statement. -/
def Statement.step [DecidableEq K] (rt : Runtime F D R K) (frame : Frame F D R K) :
    Statement → Option (Effect F D R K)
  | .refuseIf condition => do
    if ← condition.eval rt frame then some (.returns (.boolean false)) else some (.next frame)
  | .castOther className =>
    match frame.obj with
    | none => some (.next { frame with other := none })
    | some obj =>
      if rt.isSubclass obj.type className then some (.next { frame with other := some obj }) else none
  | .startHash seed => some (.next { frame with hash := some (BitVec.ofNat 32 seed) })
  | .mixHash multiplier term => do
    let hash ← frame.hash
    let mixed := BitVec.ofNat 32 multiplier * hash + (← (← term.eval rt frame).int?)
    some (.next { frame with hash := some mixed })
  | .returnTrue => some (.returns (.boolean true))
  | .returnHash => do some (.returns (.int (← frame.hash)))
  | .code _ | .returnText _ => none

/-- What a method returns. A method has to return before its statements come to their end. -/
def runBody [DecidableEq K] (rt : Runtime F D R K) (frame : Frame F D R K) :
    List Statement → Option (FieldValue F D R)
  | [] => none
  | statement :: rest => do
    match ← statement.step rt frame with
    | .next frame => runBody rt frame rest
    | .returns value => some value

section Run

variable [DecidableEq K] {rt : Runtime F D R K} {frame next : Frame F D R K} {statement : Statement}
  {rest : List Statement} {value : FieldValue F D R}

/-- A statement that does not return is followed by the others. -/
theorem runBody_of_next (h : statement.step rt frame = some (.next next)) :
    runBody rt frame (statement :: rest) = runBody rt next rest := by
  rw [runBody, h]
  rfl

theorem runBody_of_returns (h : statement.step rt frame = some (.returns value)) :
    runBody rt frame (statement :: rest) = some value := by
  rw [runBody, h]
  rfl

end Run

/-! ## Comparing and hashing values -/

namespace Runtime

variable (rt : Runtime F D R K)

/-- The comparison of the values of a shape reports a difference. -/
def Differ : Shape → FieldValue F D R → FieldValue F D R → Prop
  | .floating _, .float x, .float y => rt.floatToIntBits x ≠ rt.floatToIntBits y
  | .floating _, .double x, .double y => rt.doubleToLongBits x ≠ rt.doubleToLongBits y
  | .array false, v, w => rt.arraysEquals v w = false
  | .array true, v, w => rt.arraysDeepEquals v w = false
  | .object, v, w => rt.objectsEquals v w = false
  | _, v, w => v ≠ w

/-- What a value of a shape contributes to a hash code. -/
def hashOf : Shape → FieldValue F D R → BitVec 32
  | .array false, v => rt.arraysHashCode v
  | .array true, v => rt.arraysDeepHashCode v
  | .object, v => rt.objectsHashCode v
  | _, .boolean b => if b then 1 else 0
  | _, .long n => foldBits n
  | _, .float x => rt.floatToIntBits x
  | _, .double x => foldBits (rt.doubleToLongBits x)
  | _, v => BitVec.ofInt 32 (v.integer?.getD 0)

/-- Values that do not differ contribute the same to a hash code. -/
theorem hashOf_eq_of_not_differ {shape : Shape} {v w : FieldValue F D R} (hv : v.OfShape shape)
    (hw : w.OfShape shape) (h : ¬ rt.Differ shape v w) : rt.hashOf shape v = rt.hashOf shape w := by
  cases hv with
  | float x =>
    cases hw
    exact Decidable.not_not.mp h
  | double x =>
    cases hw
    exact congrArg foldBits (Decidable.not_not.mp h)
  | array nested =>
    cases nested with
    | false => exact rt.arrays_law v w ((Bool.not_eq_false _).mp h)
    | true => exact rt.arraysDeep_law v w ((Bool.not_eq_false _).mp h)
  | object => exact rt.objects_law v w ((Bool.not_eq_false _).mp h)
  -- The values of the other primitive types differ unless they are the same.
  | _ => rw [Classical.not_not.mp h]

end Runtime

end EntityForge.Java
