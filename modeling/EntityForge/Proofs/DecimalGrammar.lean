import EntityForge.Java.Decimal

/-!
# The grammar of decimal numbers

Decimal numbers as a grammar derives them: an optional sign, digits with at most one point, and an optional exponent.
`isDecimalChars_iff` says that the cuts which recognize them find exactly what the grammar derives, and
`decimalMantissa_iff` what a mantissa is by its characters.

Main statement: `isDecimal_iff_exists_parts`.
-/

namespace EntityForge.Java

/-- An optional sign. -/
inductive DecimalSign : List Char → Prop
  | none : DecimalSign []
  | plus : DecimalSign ['+']
  | minus : DecimalSign ['-']

/-- Digits, and nothing else. -/
def Digits (cs : List Char) : Prop :=
  ∀ c ∈ cs, c.isDigit = true

/-- Digits with at most one point, and at least one digit. -/
inductive DecimalMantissa : List Char → Prop
  | whole {cs : List Char} (hne : cs ≠ []) (h : Digits cs) : DecimalMantissa cs
  | point {whole fraction : List Char} (hne : whole ≠ [] ∨ fraction ≠ []) (hwhole : Digits whole)
      (hfraction : Digits fraction) : DecimalMantissa (whole ++ '.' :: fraction)

/-- An optional exponent: its mark, an optional sign and at least one digit. -/
inductive DecimalExponent : List Char → Prop
  | none : DecimalExponent []
  | some {mark : Char} {sign digits : List Char} (hmark : mark = 'e' ∨ mark = 'E') (hsign : DecimalSign sign)
      (hne : digits ≠ []) (hdigits : Digits digits) : DecimalExponent (mark :: (sign ++ digits))

/-- A decimal number, part by part. -/
inductive DecimalLiteral : List Char → Prop
  | mk {sign mantissa exponent : List Char} (hsign : DecimalSign sign) (hmantissa : DecimalMantissa mantissa)
      (hexponent : DecimalExponent exponent) : DecimalLiteral (sign ++ (mantissa ++ exponent))

/-! ## Signs -/

/-- Whether characters begin with no sign. -/
def Unsigned (cs : List Char) : Prop :=
  ∀ c ∈ cs.head?, c ≠ '+' ∧ c ≠ '-'

/-- A sign is dropped from what it stands before. -/
theorem dropSign_append {sign cs : List Char} (hsign : DecimalSign sign) (h : Unsigned cs) :
    dropSign (sign ++ cs) = cs := by
  cases hsign with
  | none =>
    cases cs with
    | nil => rfl
    | cons c rest =>
      obtain ⟨hplus, hminus⟩ := h c rfl
      rw [List.nil_append, dropSign]
      · rintro _ hc
        exact hplus (List.cons.inj hc).1
      · rintro _ hc
        exact hminus (List.cons.inj hc).1
  | plus => rfl
  | minus => rfl

/-- What is dropped is a sign. -/
theorem exists_sign (cs : List Char) : ∃ sign, DecimalSign sign ∧ cs = sign ++ dropSign cs := by
  unfold dropSign
  split
  · exact ⟨['+'], .plus, rfl⟩
  · exact ⟨['-'], .minus, rfl⟩
  · exact ⟨[], .none, rfl⟩

/-! ## Digits -/

theorem Digits.unsigned {cs : List Char} (h : Digits cs) : Unsigned cs := by
  intro c hc
  have hdigit : c.isDigit = true := h c (List.mem_of_mem_head? hc)
  constructor <;>
  · rintro rfl
    exact absurd hdigit (by decide)

/-- A mantissa has characters, and they are digits and points. -/
theorem DecimalMantissa.spec {cs : List Char} (h : DecimalMantissa cs) :
    cs ≠ [] ∧ ∀ c ∈ cs, c.isDigit = true ∨ c = '.' := by
  cases h with
  | whole hne hdigits => exact ⟨hne, fun c hc => .inl (hdigits c hc)⟩
  | point _ hwhole hfraction =>
    refine ⟨by simp, fun c hc => ?_⟩
    rw [List.mem_append, List.mem_cons] at hc
    rcases hc with hc | rfl | hc
    · exact .inl (hwhole c hc)
    · exact .inr rfl
    · exact .inl (hfraction c hc)

/-- Characters without a point are digits, where only digits and points are allowed. -/
theorem Digits.of_not_mem {cs : List Char} (hchars : ∀ c ∈ cs, c.isDigit = true ∨ c = '.') (hpoint : '.' ∉ cs) :
    Digits cs := by
  intro c hc
  rcases hchars c hc with hdigit | rfl
  · exact hdigit
  · exact absurd hc hpoint

/-- Digits have no point among them. -/
theorem Digits.count_point {cs : List Char} (h : Digits cs) : cs.count '.' = 0 := by
  rw [List.count_eq_zero]
  intro hmem
  exact absurd (h '.' hmem) (by decide)

/-- A mantissa consists of digits and points, with one point at most and one digit at least. -/
theorem decimalMantissa_iff {cs : List Char} :
    DecimalMantissa cs
      ↔ (∀ c ∈ cs, c.isDigit = true ∨ c = '.') ∧ cs.count '.' ≤ 1 ∧ ∃ c ∈ cs, c.isDigit = true := by
  constructor
  · intro h
    refine ⟨h.spec.2, ?_⟩
    cases h with
    | whole hne hdigits =>
      obtain ⟨c, hc⟩ := List.exists_mem_of_ne_nil cs hne
      exact ⟨Nat.le_trans (Nat.le_of_eq hdigits.count_point) (Nat.zero_le 1), c, hc, hdigits c hc⟩
    | @point whole fraction hne hwhole hfraction =>
      have hcount : (whole ++ '.' :: fraction).count '.' = 1 := by
        rw [List.count_append, List.count_cons_self, hwhole.count_point, hfraction.count_point]
      refine ⟨Nat.le_of_eq hcount, ?_⟩
      rcases hne with hne | hne
      · obtain ⟨c, hc⟩ := List.exists_mem_of_ne_nil whole hne
        exact ⟨c, List.mem_append_left _ hc, hwhole c hc⟩
      · obtain ⟨c, hc⟩ := List.exists_mem_of_ne_nil fraction hne
        exact ⟨c, List.mem_append_right _ (List.mem_cons_of_mem _ hc), hfraction c hc⟩
  · rintro ⟨hchars, hcount, c, hc, hdigit⟩
    by_cases hpoint : '.' ∈ cs
    · obtain ⟨whole, fraction, rfl⟩ := List.append_of_mem hpoint
      -- There is no second point on either side of the first one.
      rw [List.count_append, List.count_cons_self] at hcount
      have hwhole : Digits whole :=
        .of_not_mem (fun c hc => hchars c (List.mem_append_left _ hc)) (List.count_eq_zero.mp (by omega))
      have hfraction : Digits fraction :=
        .of_not_mem (fun c hc => hchars c (List.mem_append_right _ (List.mem_cons_of_mem _ hc)))
          (List.count_eq_zero.mp (by omega))
      refine .point ?_ hwhole hfraction
      rw [List.mem_append, List.mem_cons] at hc
      rcases hc with hc | rfl | hc
      · exact .inl (List.ne_nil_of_mem hc)
      · exact absurd hdigit (by decide)
      · exact .inr (List.ne_nil_of_mem hc)
    · exact .whole (List.ne_nil_of_mem hc) (.of_not_mem hchars hpoint)

theorem isMantissa_iff {cs : List Char} : isMantissa cs = true ↔ DecimalMantissa cs := by
  unfold isMantissa
  constructor
  · intro h
    cases hcut : Text.cutAt? (· == '.') cs with
    | none =>
      simp only [hcut, Bool.and_eq_true, Bool.not_eq_true', List.isEmpty_eq_false_iff, List.all_eq_true] at h
      exact .whole h.1 h.2
    | some parts =>
      obtain ⟨c, rfl, hc, -⟩ := Text.cutAt?_eq_some hcut
      simp only [hcut, Bool.and_eq_true, Bool.or_eq_true, Bool.not_eq_true', List.isEmpty_eq_false_iff,
        List.all_eq_true] at h
      rw [beq_iff_eq] at hc
      subst hc
      exact .point h.1.1 h.1.2 h.2
  · intro h
    have hpoint : ∀ {cs : List Char}, Digits cs → ∀ c ∈ cs, (c == '.') = false := by
      intro cs hcs c hc
      rw [beq_eq_false_iff_ne]
      rintro rfl
      exact absurd (hcs _ hc) (by decide)
    cases h with
    | whole hne hdigits =>
      have hcut : Text.cutAt? (· == '.') cs = none := Text.cutAt?_eq_none_iff.mpr (hpoint hdigits)
      simp only [hcut, Bool.and_eq_true, Bool.not_eq_true', List.isEmpty_eq_false_iff, List.all_eq_true]
      exact ⟨hne, hdigits⟩
    | point hne hwhole hfraction =>
      rw [Text.cutAt?_append (by decide) (hpoint hwhole)]
      simp only [Bool.and_eq_true, Bool.or_eq_true, Bool.not_eq_true', List.isEmpty_eq_false_iff,
        List.all_eq_true]
      exact ⟨⟨hne, hwhole⟩, hfraction⟩

theorem isExponent_iff {cs : List Char} :
    isExponent cs = true ↔ ∃ sign digits, DecimalSign sign ∧ digits ≠ [] ∧ Digits digits ∧ cs = sign ++ digits := by
  simp only [isExponent, Bool.and_eq_true, Bool.not_eq_true', List.isEmpty_eq_false_iff, List.all_eq_true]
  constructor
  · rintro ⟨hne, hdigits⟩
    obtain ⟨sign, hsign, hcs⟩ := exists_sign cs
    exact ⟨sign, dropSign cs, hsign, hne, hdigits, hcs⟩
  · rintro ⟨sign, digits, hsign, hne, hdigits, rfl⟩
    rw [dropSign_append hsign (Digits.unsigned hdigits)]
    exact ⟨hne, hdigits⟩

/-! ## Whole numbers -/

/-- Exactly the decimal numbers are recognized. -/
theorem isDecimalChars_iff {cs : List Char} : isDecimalChars cs = true ↔ DecimalLiteral cs := by
  unfold isDecimalChars
  constructor
  · intro h
    obtain ⟨sign, hsign, hcs⟩ := exists_sign cs
    rw [hcs]
    cases hcut : Text.cutAt? (fun c => c == 'e' || c == 'E') (dropSign cs) with
    | none =>
      rw [hcut] at h
      have hmantissa := DecimalLiteral.mk hsign (isMantissa_iff.mp h) .none
      rwa [List.append_nil] at hmantissa
    | some parts =>
      rw [hcut] at h
      simp only [Bool.and_eq_true] at h
      obtain ⟨mark, hdropped, hmark, -⟩ := Text.cutAt?_eq_some hcut
      obtain ⟨signOfExponent, digits, hsign', hne, hdigits, hexponent⟩ := isExponent_iff.mp h.2
      rw [Bool.or_eq_true, beq_iff_eq, beq_iff_eq] at hmark
      rw [hdropped, hexponent]
      exact .mk hsign (isMantissa_iff.mp h.1) (.some hmark hsign' hne hdigits)
  · rintro (@⟨sign, mantissa, exponent, hsign, hmantissa, hexponent⟩)
    obtain ⟨hne, hchars⟩ := hmantissa.spec
    have hunsigned : Unsigned (mantissa ++ exponent) := by
      intro c hc
      have hc : c ∈ mantissa.head? := by
        cases mantissa with
        | nil => exact absurd rfl hne
        | cons d rest => exact hc
      constructor <;>
      · rintro rfl
        exact absurd (hchars _ (List.mem_of_mem_head? hc)) (by decide)
    have hmark : ∀ c ∈ mantissa, (c == 'e' || c == 'E') = false := by
      intro c hc
      rw [Bool.or_eq_false_iff, beq_eq_false_iff_ne, beq_eq_false_iff_ne]
      constructor <;>
      · rintro rfl
        exact absurd (hchars _ hc) (by decide)
    rw [dropSign_append hsign hunsigned]
    cases hexponent with
    | none =>
      rw [List.append_nil, Text.cutAt?_eq_none_iff.mpr hmark]
      exact isMantissa_iff.mpr hmantissa
    | some hmarked hsign' hne' hdigits =>
      rw [Text.cutAt?_append (by simpa using hmarked) hmark]
      simp only [Bool.and_eq_true]
      exact ⟨isMantissa_iff.mpr hmantissa, isExponent_iff.mpr ⟨_, _, hsign', hne', hdigits, rfl⟩⟩

/-- **Decimal numbers are recognized.** A text writes a decimal number exactly when it is made of an optional sign, of
digits with at most one point and at least one digit, and of an optional exponent, and of nothing else. -/
theorem isDecimal_iff_exists_parts (s : String) :
    isDecimal s = true ↔ ∃ sign mantissa exponent, s.toList = sign ++ (mantissa ++ exponent) ∧ DecimalSign sign
      ∧ ((∀ c ∈ mantissa, c.isDigit = true ∨ c = '.') ∧ mantissa.count '.' ≤ 1 ∧ ∃ c ∈ mantissa, c.isDigit = true)
      ∧ DecimalExponent exponent := by
  rw [isDecimal, isDecimalChars_iff]
  constructor
  · intro h
    generalize s.toList = cs at h
    obtain @⟨sign, mantissa, exponent, hsign, hmantissa, hexponent⟩ := h
    exact ⟨sign, mantissa, exponent, rfl, hsign, decimalMantissa_iff.mp hmantissa, hexponent⟩
  · rintro ⟨sign, mantissa, exponent, hs, hsign, hmantissa, hexponent⟩
    rw [hs]
    exact .mk hsign (decimalMantissa_iff.mpr hmantissa) hexponent

end EntityForge.Java
