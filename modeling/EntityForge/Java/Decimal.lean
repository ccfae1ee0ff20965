import EntityForge.Text.Split

/-!
# Decimal numbers as they are written

A decimal number is an optional sign, digits with at most one point among them, and an optional exponent, which
has an optional sign and at least one digit.
-/

namespace EntityForge.Java

/-- The characters after a sign, if there is one. -/
def dropSign : List Char → List Char
  | '+' :: rest => rest
  | '-' :: rest => rest
  | cs => cs

/-- Digits with at most one point among them, and at least one digit. -/
def isMantissa (cs : List Char) : Bool :=
  match Text.cutAt? (· == '.') cs with
  | some (whole, fraction) =>
    (!whole.isEmpty || !fraction.isEmpty) && whole.all Char.isDigit && fraction.all Char.isDigit
  | none => !cs.isEmpty && cs.all Char.isDigit

/-- An optional sign and at least one digit. -/
def isExponent (cs : List Char) : Bool :=
  !(dropSign cs).isEmpty && (dropSign cs).all Char.isDigit

/-- Whether the characters write a decimal number. -/
def isDecimalChars (cs : List Char) : Bool :=
  match Text.cutAt? (fun c => c == 'e' || c == 'E') (dropSign cs) with
  | some (mantissa, exponent) => isMantissa mantissa && isExponent exponent
  | none => isMantissa (dropSign cs)

/-- Whether a text writes a decimal number. -/
def isDecimal (s : String) : Bool :=
  isDecimalChars s.toList

end EntityForge.Java
