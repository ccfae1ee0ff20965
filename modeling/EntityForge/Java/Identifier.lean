import EntityForge.Text.Alphabetic
import EntityForge.Text.Numeric

/-!
# Identifiers

An identifier begins with an alphabetic character, an underscore or a dollar sign; numeric characters may follow
as well.
-/

namespace EntityForge.Java

/-- Characters that may begin an identifier. -/
def isIdentifierStart (c : Char) : Bool :=
  Text.isAlphabetic c || c == '_' || c == '$'

/-- Characters that may stand in an identifier after its first. -/
def isIdentifierPart (c : Char) : Bool :=
  Text.isAlphabetic c || Text.isNumeric c || c == '_' || c == '$'

/-- Whether a text is an identifier. -/
def isIdentifier (s : String) : Bool :=
  match s.toList with
  | [] => false
  | c :: rest => isIdentifierStart c && rest.all isIdentifierPart

/-- What may begin an identifier may also continue one. -/
theorem isIdentifierPart_of_start {c : Char} (h : isIdentifierStart c = true) :
    isIdentifierPart c = true := by
  simp only [isIdentifierStart, Bool.or_eq_true] at h
  simp only [isIdentifierPart, Bool.or_eq_true]
  rcases h with (h | h) | h <;> simp [h]

/-- No identifier begins with a digit. -/
theorem not_isIdentifierStart_of_isDigit {c : Char} (h : c.isDigit = true) : isIdentifierStart c = false := by
  have hrange : 48 ≤ c.toNat ∧ c.toNat ≤ 57 := by
    simpa [Char.isDigit, UInt32.le_iff_toNat_le] using h
  have halpha : c.isAlpha = false := by
    rw [Bool.eq_false_iff]
    intro halpha
    have hletter : (65 ≤ c.toNat ∧ c.toNat ≤ 90) ∨ (97 ≤ c.toNat ∧ c.toNat ≤ 122) := by
      rcases (Bool.or_eq_true _ _).mp halpha with hupper | hlower
      · have hupper : c.val ≥ 'A'.val ∧ c.val ≤ 'Z'.val := of_decide_eq_true hupper
        exact .inl hupper
      · obtain ⟨hlow, hhigh⟩ := (Bool.and_eq_true _ _).mp hlower
        have hlow : c.val ≥ 'a'.val := of_decide_eq_true hlow
        have hhigh : c.val ≤ 'z'.val := of_decide_eq_true hhigh
        exact .inr ⟨hlow, hhigh⟩
    omega
  have hother : c ≠ '_' ∧ c ≠ '$' := by
    constructor <;>
    · rintro rfl
      exact absurd h (by decide)
  simp [isIdentifierStart, Text.isAlphabetic_of_ascii (show c.toNat < 0x80 by omega), halpha, hother]

/-- An ASCII character of an identifier is a letter, a digit, an underscore or a dollar sign. -/
theorem ascii_of_isIdentifierPart {c : Char} (h : isIdentifierPart c = true) (hc : c.toNat < 0x80) :
    c.isAlpha = true ∨ c.isDigit = true ∨ c = '_' ∨ c = '$' := by
  simp only [isIdentifierPart, Text.isAlphabetic_of_ascii hc, Text.isNumeric_of_ascii hc, Bool.or_eq_true,
    beq_iff_eq] at h
  rcases h with ((h | h) | h) | h <;> simp [h]

/-- All characters of an identifier are characters of identifiers. -/
theorem isIdentifierPart_of_mem {s : String} (h : isIdentifier s = true) {c : Char} (hc : c ∈ s.toList) :
    isIdentifierPart c = true := by
  unfold isIdentifier at h
  split at h
  · simp at h
  · next d rest hs =>
    rw [Bool.and_eq_true, List.all_eq_true] at h
    rw [hs, List.mem_cons] at hc
    rcases hc with rfl | hc
    · exact isIdentifierPart_of_start h.1
    · exact h.2 c hc

/-- No dot stands in an identifier. -/
theorem dot_not_mem_of_isIdentifier {s : String} (h : isIdentifier s = true) : '.' ∉ s.toList := by
  intro hdot
  exact absurd (isIdentifierPart_of_mem h hdot) (by decide)

end EntityForge.Java
