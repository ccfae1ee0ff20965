import EntityForge.Json.Value

/-!
# Magnitudes of numbers

A number that is kept for later has to be in the range of floating-point numbers of 64 bits. Its magnitude is not
reckoned exactly but as a product of two factors, the leading digits that fit a word of 64 bits and a power of ten,
each rounded to 53 bits. So a number barely below the limit can be out of range.

Main statement: `nearest_le`, that rounding adds half the spacing at most.
-/

namespace EntityForge

/-- A magnitude in two factors: the leading digits of a number, and the power of ten to multiply them by. -/
structure Json.Magnitude where
  significand : Nat
  scale : Int
  deriving DecidableEq

namespace Json.Magnitude

/-! ## Leading digits -/

/-- The least number that a word of 64 bits cannot hold. -/
def wordLimit : Nat :=
  UInt64.size

/-- The number that a digit written after `n` makes of it. -/
def appended (n : Nat) (digit : Char) : Nat :=
  n * 10 + (digit.toNat - '0'.toNat)

/-- Takes in the digits before the point. From the first on that does not fit, each raises the scale instead. -/
def takeWhole (magnitude : Magnitude) : List Char → Magnitude
  | [] => magnitude
  | digit :: rest =>
    if appended magnitude.significand digit < wordLimit then
      takeWhole { magnitude with significand := appended magnitude.significand digit } rest
    else { magnitude with scale := magnitude.scale + (rest.length + 1) }

/-- Takes in the digits after the point, each of which lowers the scale. From the first on that does not fit, they
are left out. -/
def takeFraction (magnitude : Magnitude) : List Char → Magnitude
  | [] => magnitude
  | digit :: rest =>
    if appended magnitude.significand digit < wordLimit then
      takeFraction { significand := appended magnitude.significand digit, scale := magnitude.scale - 1 } rest
    else magnitude

/-! ## Rounding -/

/-- The distance between the neighbours of `n` among the numbers of 53 significant bits. -/
def spacing (n : Nat) : Nat :=
  1 <<< (n.log2 - 52)

/-- The number of 53 significant bits that is nearest to `n`. Of two that are equally near it is the even multiple of
the spacing. -/
def nearest (n : Nat) : Nat :=
  let below := n / spacing n
  let rest := n % spacing n
  if 2 * rest < spacing n ∨ (2 * rest = spacing n ∧ below % 2 = 0) then below * spacing n
  else (below + 1) * spacing n

/-- A number of at most 53 bits is not rounded. -/
theorem nearest_of_lt {n : Nat} (h : n < 1 <<< 53) : nearest n = n := by
  have hs : spacing n = 1 := by
    unfold spacing
    by_cases hn : n = 0
    · simp [hn]
    · have hlog : n.log2 < 53 := (Nat.log2_lt hn).2 h
      simp [show n.log2 - 52 = 0 by omega]
  simp [nearest, hs, Nat.mod_one]

/-- Rounding adds half the spacing at most. -/
theorem nearest_le (n : Nat) : 2 * nearest n ≤ 2 * n + spacing n := by
  have hn : n / spacing n * spacing n + n % spacing n = n := Nat.div_add_mod' n (spacing n)
  simp only [nearest, Nat.add_mul, Nat.one_mul]
  split <;> omega

/-! ## The range -/

/-- The least product that no floating-point number of 64 bits is near to: half a unit in the last place above the
greatest one. -/
def limit : Nat :=
  1 <<< 1024 - 1 <<< 970

/-- The greatest power of ten in the range. -/
def scaleLimit : Int :=
  308

/-- Whether the product of the rounded factors is beyond the range. Nothing with a negative scale is. -/
def outOfRange (magnitude : Magnitude) : Bool :=
  if magnitude.significand = 0 ∨ magnitude.scale < 0 then false
  else if scaleLimit < magnitude.scale then true
  else limit ≤ nearest magnitude.significand * nearest (Nat.pow 10 magnitude.scale.toNat)

end Json.Magnitude

namespace Json.Number

/-- The magnitude of a number: its leading digits, and the scale that its point and its exponent leave. -/
def magnitude (n : Number) : Magnitude :=
  let leading := ((Magnitude.mk 0 0).takeWhole (Nat.toDigits 10 n.whole)).takeFraction n.fraction
  { leading with scale := leading.scale + n.exponent.getD 0 }

/-- Whether a number is beyond the range of floating-point numbers of 64 bits. -/
def outOfRange (n : Number) : Bool :=
  n.magnitude.outOfRange

end Json.Number

end EntityForge
