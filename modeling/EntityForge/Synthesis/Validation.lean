import EntityForge.Generation.Error
import EntityForge.Java.Annotation
import EntityForge.Java.Decimal

/-!
# Validation annotations

Each constraint becomes one annotation. An option that equals its default is written only when `defaults` is
set. Unselected and empty constraints become nothing.
-/

namespace EntityForge

open Java

/-- The package of the validation annotations. -/
def validationPackage : String :=
  "javax.validation.constraints"

/-- The validation annotation of a name, without arguments. -/
def validationUse (name : String) : AnnotationUse :=
  .plain validationPackage name

@[simp]
theorem name_validationUse (name : String) : (validationUse name).name = name :=
  rfl

/-- The greatest bound of a size, which is also the default of its upper bound. -/
def maxSize : Nat :=
  2147483647

namespace Rule

/-- The value of a bound of a size, written unless it is the default. -/
def sizeBound (defaults : Bool) (default : Nat) (bound : Option UInt32) : Option Value :=
  let n := (bound.map UInt32.toNat).getD default
  if defaults || n != default then some (.int n) else none

/-- The annotation of a decimal bound. -/
def decimalUse (defaults : Bool) (name : String) (bound : Option String) (inclusive : Option Bool) :
    Except AttributeFault AnnotationUse :=
  let inclusive := inclusive.getD true
  let inclusive := if defaults || !inclusive then some (Value.bool inclusive) else none
  match bound.map Text.trim with
  | none => .ok ((validationUse name).arg? "inclusive" inclusive)
  | some value =>
    if isDecimal value then .ok (((validationUse name).arg "value" (.text value)).arg? "inclusive" inclusive)
    else .error (.notDecimal name value)

/-- What is wrong with the bounds of a size, if anything is. -/
def sizeFault? (low high : Option UInt32) : Option AttributeFault :=
  let tooLarge (bound : Option UInt32) : Bool := bound.any fun n => maxSize < n.toNat
  match low, high with
  | some a, some b =>
    if b < a then some (.sizeInverted a.toNat b.toNat)
    else if tooLarge low then some (.sizeTooLarge "min")
    else if tooLarge high then some (.sizeTooLarge "max")
    else none
  | _, _ =>
    if tooLarge low then some (.sizeTooLarge "min")
    else if tooLarge high then some (.sizeTooLarge "max")
    else none

/-- The annotation of a rule. -/
def use (defaults : Bool) (rule : Rule) : Except AttributeFault AnnotationUse :=
  let bare := validationUse rule.annotationName
  match rule with
  | .marker _ => .ok bare
  | .min value | .max value => .ok (bare.arg? "value" (value.map fun n => .int n.toInt))
  | .decimalMin value inclusive | .decimalMax value inclusive =>
    decimalUse defaults rule.annotationName value inclusive
  | .size low high =>
    match sizeFault? low high with
    | some fault => .error fault
    | none =>
      .ok ((bare.arg? "min" (sizeBound defaults 0 low)).arg? "max" (sizeBound defaults maxSize high))
  | .digits (some integer) (some fraction) =>
    .ok ((bare.arg "integer" (.int integer.toNat)).arg "fraction" (.int fraction.toNat))
  | .digits _ _ => .error .digitsIncomplete
  | .pattern regexp flags =>
    let flags :=
      if defaults || !flags.isEmpty then some (Value.constants "Pattern.Flag" (flags.map Spelled.spelling))
      else none
    .ok ((bare.arg? "regexp" (regexp.map .text)).arg? "flags" flags)
  | .email regexp =>
    match regexp.filter (· != "") with
    | some regexp => .ok (bare.arg "regexp" (.text regexp))
    | none => .ok (bare.arg? "regexp" (if defaults then some (.text ".*") else none))

end Rule

namespace Constraint

/-- The annotation of a constraint, if it is selected and not empty. -/
def use? (defaults : Bool) (c : Constraint) : Except AttributeFault (Option AnnotationUse) :=
  if !c.selected || c.isEmpty then .ok none
  else do
    let use ← c.rule.use defaults
    pure (some (use.arg? "message" (c.message.map .text)))

/-- The annotations of the constraints, in order, up to the first that is wrong. -/
def uses (defaults : Bool) : List Constraint → Except AttributeFault (List AnnotationUse)
  | [] => .ok []
  | c :: rest => do
    let use ← c.use? defaults
    let others ← uses defaults rest
    pure (use.toList ++ others)

end Constraint

end EntityForge
