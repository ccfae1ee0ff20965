/-!
# Values of the interchange format

A `Json` value keeps the fields of an object in the order of the text and with repetitions, and a number in
its written parts, so that a reader of records can tell `1` from `1.0` and a repeated field from a single one.
-/

namespace EntityForge

/-- A number as written: its sign, its whole part, the digits after the point and the exponent. -/
structure Json.Number where
  negative : Bool
  whole : Nat
  fraction : List Char
  exponent : Option Int
  deriving DecidableEq

/-- A value of the interchange format. `illFormed` stands for a text, or an object with a field name, whose
escapes name one half of a surrogate pair alone and so spell no text. -/
inductive Json where
  | null
  | bool (value : Bool)
  | number (value : Json.Number)
  | text (value : String)
  | array (items : List Json)
  | object (fields : List (String × Json))
  | illFormed

namespace Json.Number

/-- The number written for an integer. -/
def ofInt (n : Int) : Number :=
  { negative := n < 0, whole := n.natAbs, fraction := [], exponent := none }

/-- The integer a number writes, if it is written as one: without point and exponent, and not as `-0`. -/
def toInt? (n : Number) : Option Int :=
  match n.fraction, n.exponent with
  | [], none =>
    if n.negative then (if n.whole = 0 then none else some (-(n.whole : Int))) else some n.whole
  | _, _ => none

/-- The integer written for `n` is `n`. -/
theorem toInt?_ofInt (n : Int) : (ofInt n).toInt? = some n := by
  unfold toInt? ofInt
  by_cases h : n < 0
  · have hne : n.natAbs ≠ 0 := by omega
    have hval : -(n.natAbs : Int) = n := by omega
    simp only [h, decide_true, if_true, if_neg hne, hval]
  · have hval : (n.natAbs : Int) = n := by omega
    simp only [h, decide_false, Bool.false_eq_true, if_false, hval]

end Json.Number

namespace Json

/-- The value that holds an integer. -/
def int (n : Int) : Json :=
  .number (.ofInt n)

end Json

end EntityForge
