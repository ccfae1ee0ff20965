import EntityForge.Text.Blank
import EntityForge.Text.Spelled

/-!
# Validation constraints

A constraint pairs a rule with what all rules share: whether it is selected, and the message of a violation.
-/

namespace EntityForge

/-- The rules without options. -/
inductive Marker where
  | notNull
  | null
  | assertTrue
  | assertFalse
  | notEmpty
  | notBlank
  | positive
  | positiveOrZero
  | negative
  | negativeOrZero
  | past
  | pastOrPresent
  | future
  | futureOrPresent
  deriving DecidableEq

instance : Spelled Marker where
  values :=
    [.notNull, .null, .assertTrue, .assertFalse, .notEmpty, .notBlank, .positive, .positiveOrZero, .negative,
      .negativeOrZero, .past, .pastOrPresent, .future, .futureOrPresent]
  spelling
    | .notNull => "NotNull"
    | .null => "Null"
    | .assertTrue => "AssertTrue"
    | .assertFalse => "AssertFalse"
    | .notEmpty => "NotEmpty"
    | .notBlank => "NotBlank"
    | .positive => "Positive"
    | .positiveOrZero => "PositiveOrZero"
    | .negative => "Negative"
    | .negativeOrZero => "NegativeOrZero"
    | .past => "Past"
    | .pastOrPresent => "PastOrPresent"
    | .future => "Future"
    | .futureOrPresent => "FutureOrPresent"
  find_spelling := by intro a; cases a <;> decide

/-- The flags of a regular expression. -/
inductive PatternFlag where
  | unixLines
  | caseInsensitive
  | comments
  | multiline
  | dotall
  | unicodeCase
  | canonEq
  deriving DecidableEq

instance : Spelled PatternFlag where
  values := [.unixLines, .caseInsensitive, .comments, .multiline, .dotall, .unicodeCase, .canonEq]
  spelling
    | .unixLines => "UNIX_LINES"
    | .caseInsensitive => "CASE_INSENSITIVE"
    | .comments => "COMMENTS"
    | .multiline => "MULTILINE"
    | .dotall => "DOTALL"
    | .unicodeCase => "UNICODE_CASE"
    | .canonEq => "CANON_EQ"
  find_spelling := by intro a; cases a <;> decide

/-- A rule that a value has to obey, with its options. -/
inductive Rule where
  | marker (marker : Marker)
  | min (value : Option Int64)
  | max (value : Option Int64)
  | decimalMin (value : Option String) (inclusive : Option Bool)
  | decimalMax (value : Option String) (inclusive : Option Bool)
  | size (min max : Option UInt32)
  | digits (integer fraction : Option UInt32)
  | pattern (regexp : Option String) (flags : List PatternFlag)
  | email (regexp : Option String)
  deriving DecidableEq

/-- The name of the annotation that states a rule. -/
def Rule.annotationName : Rule → String
  | .marker m => Spelled.spelling m
  | .min _ => "Min"
  | .max _ => "Max"
  | .decimalMin _ _ => "DecimalMin"
  | .decimalMax _ _ => "DecimalMax"
  | .size _ _ => "Size"
  | .digits _ _ => "Digits"
  | .pattern _ _ => "Pattern"
  | .email _ => "Email"

/-- A rule laid on an attribute. An unselected constraint is kept but never written. -/
structure Constraint where
  selected : Bool
  message : Option String
  rule : Rule
  deriving DecidableEq

namespace Constraint

/-- The selected constraint of a rule, without a message. -/
def of (rule : Rule) : Constraint :=
  { selected := true, message := none, rule }

/-- Whether all required options of the rule are absent. A rule with some of them is not empty but wrong. -/
def isEmpty (c : Constraint) : Bool :=
  match c.rule with
  | .min value | .max value => value.isNone
  | .decimalMin value _ | .decimalMax value _ => value.all Text.isBlank
  | .digits integer fraction => integer.isNone && fraction.isNone
  | .pattern regexp _ => regexp.all (· == "")
  | _ => false

end Constraint

end EntityForge
