import EntityForge.Proofs.NamedTypes
import EntityForge.Proofs.SpelledDefaults

/-!
# Integers in annotations

The numbers in the annotations of an attribute are written without a suffix, and so they have to be numbers of 32 bits.
The bounds of a size are compared with the greatest of these before they are written. The values of `Min` and `Max`, the
digits and the length of a column are written as they are.

Main statement: `integers_fit_iff`.
-/

namespace EntityForge

namespace Java

/-! ## Integers that are written -/

/-- The number is one of 32 bits with a sign, as numerals without a suffix have to be. -/
def FitsInt (n : Int) : Prop :=
  -2147483648 ≤ n ∧ n ≤ 2147483647

instance (n : Int) : Decidable (FitsInt n) :=
  inferInstanceAs (Decidable (_ ∧ _))

theorem fitsInt_natCast_iff {n : Nat} : FitsInt n ↔ n ≤ 2147483647 := by
  rw [FitsInt]
  omega

/-- The integer that a value is. -/
def Value.integers : Value → List Int
  | .int n => [n]
  | _ => []

/-- The integers that the annotation has as arguments. -/
def AnnotationUse.integers (use : AnnotationUse) : List Int :=
  use.arguments.flatMap (·.value.integers)

/-- All of these integers fit. -/
def AnnotationUse.IntegersFit (use : AnnotationUse) : Prop :=
  ∀ n ∈ use.integers, FitsInt n

/-- The number that is read without braces. -/
def Item.integers : Item → List Int
  | .number n => [n]
  | _ => []

def ElementValue.integers : ElementValue → List Int
  | .one item => item.integers
  | .array items => items.flatMap Item.integers

/-- The numbers that are read in the elements of an annotation. -/
def AnnotationReading.integers (a : AnnotationReading) : List Int :=
  a.elements.flatMap (·.2.integers)

theorem Value.Says.integers_eq {v : Value} {e : ElementValue} (h : v.Says e) : e.integers = v.integers := by
  cases h with
  | texts values => simp [ElementValue.integers, Value.integers, Item.integers]
  | constants => simp [ElementValue.integers, Value.integers, Item.integers]
  | _ => rfl

/-- What is read of an annotation has the integers of the annotation, in their order. -/
theorem AnnotationUse.Says.integers_eq {use : AnnotationUse} {read : AnnotationReading} (h : use.Says read) :
    read.integers = use.integers := by
  obtain ⟨elements, hsays, hkeyed⟩ := h.elements
  have hsame : elements.map (·.2.integers) = use.arguments.map (·.value.integers) := by
    rw [← List.forall₂_eq_eq_eq, List.forall₂_map_left_iff, List.forall₂_map_right_iff]
    refine hsays.flip.imp fun element a hsaid => ?_
    cases hsaid with
    | keyed _ hsaid => exact hsaid.integers_eq
    | single hsaid => exact hsaid.integers_eq
  have hvalues : read.elements.map (·.2.integers) = elements.map (·.2.integers) := by
    have hmapped := congrArg (List.map ElementValue.integers) (map_snd_of_keyed?_eq_some hkeyed)
    rwa [List.map_map, List.map_map] at hmapped
  rw [AnnotationReading.integers, AnnotationUse.integers, List.flatMap_def, List.flatMap_def, hvalues, hsame]

namespace AnnotationUse

variable (use : AnnotationUse) (key : String)

@[simp]
theorem integers_arg? (v : Option Value) :
    (use.arg? key v).integers = use.integers ++ v.toList.flatMap Value.integers := by
  rw [integers, arguments_arg?, List.flatMap_append]
  cases v <;> simp [integers, argument?]

@[simp]
theorem integers_arg (v : Value) : (use.arg key v).integers = use.integers ++ v.integers := by
  simp [integers, arg]

@[simp]
theorem integers_value (v : Value) : (use.value v).integers = use.integers ++ v.integers := by
  simp [integers, AnnotationUse.value]

@[simp]
theorem integers_naming (type : String) : (use.naming type).integers = use.integers :=
  rfl

@[simp]
theorem integers_plain (package name : String) : (plain package name).integers = [] :=
  rfl

variable {use}

/-- There is nothing to fit in an annotation without integers. -/
theorem integersFit_of_eq_nil (h : use.integers = []) : use.IntegersFit := by
  simp [IntegersFit, h]

end AnnotationUse

end Java

open Java

/-! ## Columns -/

namespace Persistence

variable {defaults : Bool}

@[simp]
theorem integers_use (name : String) : (use name).integers = [] :=
  rfl

@[simp]
theorem integers_withConstant {α : Type} [Spelled α] (base : AnnotationUse) (key : Option String) (enumeration : String)
    (constant : α) : (withConstant base key enumeration constant).integers = base.integers := by
  cases key <;> simp [withConstant, Value.integers]

@[simp]
theorem integers_fetching (base : AnnotationUse) (fetch : Option Fetch) :
    (fetching base fetch).integers = base.integers := by
  cases fetch <;> simp [fetching]

@[simp]
theorem integers_relationship (name : String) (relation : Relation) : (relationship name relation).integers = [] := by
  obtain ⟨mappedBy, optional, fetch⟩ := relation
  cases mappedBy <;> cases optional <;> simp [relationship, Value.integers]

/-- What an attribute is to its class is said without integers. -/
theorem integers_of_mem_mappingUses {mapping : Mapping} {uses : List AnnotationUse}
    (h : mappingUses defaults mapping = .ok uses) : ∀ u ∈ uses, u.integers = [] := by
  cases mapping with
  | id generation =>
    cases generation with
    | none =>
      cases h
      simp
    | some generation =>
      cases h
      simp
  | basic =>
    cases h
    cases defaults <;> simp
  | version | transient | embedded | embeddedId | elementCollection | oneToOne =>
    cases h
    simp
  | manyToOne relation | oneToMany relation | manyToMany relation =>
    rw [mappingUses] at h
    split at h
    · cases h
    · cases h
      simp

theorem integers_temporalUse (temporal : Temporal) : (temporalUse temporal).integers = [] := by
  simp [temporalUse]

theorem integers_enumeratedUse (enumerated : Enumerated) : (enumeratedUse defaults enumerated).integers = [] := by
  rw [enumeratedUse]
  split <;> simp

theorem integers_convertUse (convert : Convert) : (convertUse defaults convert).integers = [] := by
  rw [AnnotationUse.integers, arguments_convertUse, flagArgument]
  cases Text.nonBlank? convert.converter <;> cases Text.nonBlank? convert.attributeName <;> split <;>
    simp [AnnotationUse.argument?, Value.integers]

/-- The length of a column fits exactly when it is one of 31 bits; the usual length fits. -/
theorem columnUse_fits_iff (column : Column) :
    (columnUse defaults column).IntegersFit ↔ ∀ length ∈ column.length, length.toNat ≤ 2147483647 := by
  have hflag : ∀ default value, (flagArgument defaults default value).toList.flatMap Value.integers = [] := by
    intro default value
    rw [flagArgument]
    split <;> rfl
  have hname : ((Text.nonBlank? column.name).map Value.text).toList.flatMap Value.integers = [] := by
    cases Text.nonBlank? column.name <;> rfl
  simp only [AnnotationUse.IntegersFit, columnUse, AnnotationUse.integers_arg?, integers_use, hflag, hname,
    List.nil_append]
  cases column.length with
  | none => cases defaults <;> simp [defaultLength, Value.integers, FitsInt]
  | some length =>
    by_cases husual : length.toNat = defaultLength
    · rw [defaultLength] at husual
      cases defaults <;> simp [defaultLength, husual, Value.integers, FitsInt]
    · simp [husual, Value.integers, fitsInt_natCast_iff]

/-- All integers in the persistence annotations of an attribute fit when the length of its column does. -/
theorem attributeUses_fit_iff {kind : ClassKind} {a : Attribute} {uses : List AnnotationUse}
    (h : attributeUses defaults kind a = .ok uses) :
    (∀ u ∈ uses, u.IntegersFit)
      ↔ (kind.isManaged = true → ∀ column ∈ a.column, ∀ length ∈ column.length, length.toNat ≤ 2147483647) := by
  -- Of all these annotations only that of the column has an integer.
  have hfree : ∀ us : List AnnotationUse, (∀ u ∈ us, u.integers = []) → ((∀ u ∈ us, u.IntegersFit) ↔ True) :=
    fun us hus => iff_true_intro fun u hu => AnnotationUse.integersFit_of_eq_nil (hus u hu)
  have hcolumn : (∀ u ∈ (a.column.map (columnUse defaults)).toList, u.IntegersFit)
      ↔ ∀ column ∈ a.column, ∀ length ∈ column.length, length.toNat ≤ 2147483647 := by
    cases a.column with
    | none => simp
    | some column => simpa using columnUse_fits_iff column
  have hlob : ∀ u ∈ (if a.lob then [use "Lob"] else []), u.integers = [] := by
    cases a.lob <;> simp
  have htemporal : ∀ u ∈ (a.temporal.map temporalUse).toList, u.integers = [] := by
    cases a.temporal <;> simp [integers_temporalUse]
  have henumerated : ∀ u ∈ (a.enumerated.map (enumeratedUse defaults)).toList, u.integers = [] := by
    cases a.enumerated <;> simp [integers_enumeratedUse]
  have hconvert : ∀ u ∈ (a.convert.map (convertUse defaults)).toList, u.integers = [] := by
    cases a.convert <;> simp [integers_convertUse]
  rw [attributeUses] at h
  split at h
  · next hunmanaged =>
    cases h
    have hno : ¬kind.isManaged = true := by simpa using hunmanaged
    simp [hno]
  · next hmanaged =>
    have hyes : kind.isManaged = true := by simpa using hmanaged
    obtain ⟨mapping, hmapping, h⟩ := bind_eq_ok_iff.mp h
    split at h
    · cases h
    · cases h
      simp only [columnUses, List.forall_mem_append, hfree _ (integers_of_mem_mappingUses hmapping), hcolumn,
        hfree _ hlob, hfree _ htemporal, hfree _ henumerated, hfree _ hconvert, true_and, and_true, hyes, forall_const]

end Persistence

/-! ## Constraints -/

/-- The options of a rule that are written as integers and not compared with anything before. -/
def Rule.limits : Rule → List Int
  | .min value | .max value => (value.map Int64.toInt).toList
  | .digits integer fraction => (integer.toList ++ fraction.toList).map fun n => (n.toNat : Int)
  | _ => []

/-- A bound of a size fits when it is no greater than the greatest bound, and so does the default written for it. -/
theorem Rule.sizeBound_fits {defaults : Bool} {default : Nat} {bound : Option UInt32} (hdefault : default ≤ maxSize)
    (hbound : ∀ n ∈ bound, n.toNat ≤ maxSize) :
    ∀ n ∈ (sizeBound defaults default bound).toList.flatMap Value.integers, FitsInt n := by
  intro n hn
  have hle : (bound.map UInt32.toNat).getD default ≤ maxSize := by
    cases bound with
    | none => exact hdefault
    | some b => exact hbound b rfl
  rw [sizeBound] at hn
  split at hn
  · obtain rfl : n = ((bound.map UInt32.toNat).getD default : Nat) := by simpa [Value.integers] using hn
    exact fitsInt_natCast_iff.mpr hle
  · simp at hn

/-- The bounds of a size fit, since they are compared with the greatest bound. -/
theorem Rule.size_fits {defaults : Bool} {low high : Option UInt32} {use : AnnotationUse}
    (h : (Rule.size low high).use defaults = .ok use) : use.IntegersFit := by
  have hsome : sizeFault? low high = none := by
    rw [Rule.use] at h
    cases hfault : sizeFault? low high with
    | none => rfl
    | some fault => simp [hfault] at h
  rw [sizeFault?_eq_none_iff, illFormed_size_iff] at hsome
  simp only [not_or, not_exists, not_and, Nat.not_lt] at hsome
  obtain ⟨-, hlow, hhigh⟩ := hsome
  rw [use_size_eq_ok h, AnnotationUse.IntegersFit]
  simp only [AnnotationUse.integers_arg?, validationUse, AnnotationUse.integers_plain, List.nil_append, List.mem_append]
  rintro n (hn | hn)
  · exact sizeBound_fits (Nat.zero_le _) hlow n hn
  · exact sizeBound_fits (Nat.le_refl _) hhigh n hn

/-- All integers in the annotation of a rule fit exactly when its limits do. -/
theorem Rule.use_fits_iff {defaults : Bool} {rule : Rule} {use : AnnotationUse} (h : rule.use defaults = .ok use) :
    use.IntegersFit ↔ ∀ n ∈ rule.limits, FitsInt n := by
  rw [AnnotationUse.IntegersFit]
  cases rule with
  | marker m =>
    cases h
    simp [validationUse, limits]
  | min value | max value =>
    cases h
    cases value <;> simp [validationUse, limits, Value.integers]
  | decimalMin value inclusive | decimalMax value inclusive =>
    rw [decimalUse_eq_ok h]
    cases value <;> cases defaults <;> cases inclusive.getD true <;> simp [validationUse, limits, Value.integers]
  | size low high => simpa [limits, AnnotationUse.IntegersFit] using size_fits h
  | digits integer fraction =>
    obtain ⟨i, f, rfl, rfl, rfl⟩ := use_digits_eq_ok h
    simp [validationUse, limits, Value.integers]
  | pattern regexp flags =>
    cases h
    cases regexp <;> cases defaults <;> cases flags <;> simp [validationUse, limits, Value.integers]
  | email regexp =>
    rw [use_email] at h
    cases h
    cases regexp.filter (· != "") <;> cases defaults <;> simp [validationUse, limits, Value.integers]

namespace Constraint

variable {defaults : Bool}

/-- A constraint without an annotation has no limits, unless it is not selected. -/
theorem use?_fits_iff {c : Constraint} {use : Option AnnotationUse} (h : c.use? defaults = .ok use) :
    (∀ u ∈ use, u.IntegersFit) ↔ (c.selected = true → ∀ n ∈ c.rule.limits, FitsInt n) := by
  obtain ⟨selected, message, rule⟩ := c
  rw [use?] at h
  split at h
  · next hskipped =>
    cases h
    have hskipped : selected = false ∨ isEmpty ⟨selected, message, rule⟩ = true := by simpa using hskipped
    rcases hskipped with rfl | hempty
    · simp
    · have hnone : rule.limits = [] := by
        cases rule with
        | min value | max value =>
          cases value with
          | none => rfl
          | some value => cases hempty
        | digits integer fraction =>
          cases integer <;> cases fraction <;> first | rfl | cases hempty
        | _ => rfl
      simp [hnone]
  · next hkept =>
    obtain ⟨bare, hbare, h⟩ := bind_eq_ok_iff.mp h
    cases h
    have hselected : selected = true := by
      simp at hkept
      exact hkept.1
    have hmessage : (bare.arg? "message" (message.map .text)).integers = bare.integers := by
      cases message <;> simp [Value.integers]
    have hfits := Rule.use_fits_iff hbare
    rw [AnnotationUse.IntegersFit, ← hmessage] at hfits
    simp only [Option.mem_def, Option.some.injEq, forall_eq', hselected, forall_const]
    exact hfits

/-- All integers in the annotations of constraints fit exactly when the limits of the selected ones do. -/
theorem uses_fit_iff {constraints : List Constraint} {uses : List AnnotationUse}
    (h : Constraint.uses defaults constraints = .ok uses) :
    (∀ u ∈ uses, u.IntegersFit)
      ↔ ∀ c ∈ constraints, c.selected = true → ∀ n ∈ c.rule.limits, FitsInt n := by
  induction constraints generalizing uses with
  | nil =>
    cases h
    simp
  | cons c rest ih =>
    obtain ⟨first, hfirst, h⟩ := bind_eq_ok_iff.mp h
    obtain ⟨others, hothers, h⟩ := bind_eq_ok_iff.mp h
    cases h
    simp only [List.forall_mem_append, List.forall_mem_cons, ih hothers, ← use?_fits_iff hfirst, Option.mem_toList,
      Option.mem_def]

end Constraint

/-! ## Attributes -/

/-- The annotation is read, and the numbers in it are the integers of its arguments, when each class literal is one of
an identifier. -/
theorem Java.AnnotationUse.WellFormed.exists_integers {use : AnnotationUse} (h : use.WellFormed)
    (hliterals : ∀ x ∈ use.arguments, ∀ type, x.value = .classLiteral type → isIdentifier type = true) :
    ∃ read, AnnotationReading.ofText? use.text = some read ∧ read.integers = use.integers := by
  obtain ⟨read, hread⟩ := h.exists_says hliterals
  exact ⟨read, hread.ofText?_text, hread.integers_eq⟩

/-- **Which integers fit.** The annotations of an attribute that succeeds, in a class of any kind, are read with the
integers of their arguments. All of these are numbers of 32 bits exactly when the length of a column that is written is
one, and the values of `Min` and `Max` and the digits of all selected constraints are; all other integers always fit. -/
theorem integers_fit_iff {defaults : Bool} {kind : ClassKind} {a : Attribute} {constraints : List Constraint}
    {persistence validation : List AnnotationUse}
    (hpersistence : Persistence.attributeUses defaults kind a = .ok persistence)
    (hvalidation : Constraint.uses defaults constraints = .ok validation) :
    (∀ use ∈ persistence ++ validation,
      (∀ x ∈ use.arguments, ∀ type, x.value = .classLiteral type → isIdentifier type = true) →
        ∃ read, AnnotationReading.ofText? use.text = some read ∧ read.integers = use.integers)
    ∧ ((∀ use ∈ persistence ++ validation, ∀ n ∈ use.integers, FitsInt n)
      ↔ (kind.isManaged = true → ∀ column ∈ a.column, ∀ length ∈ column.length, length.toNat ≤ 2147483647)
        ∧ ∀ c ∈ constraints, c.selected = true → ∀ n ∈ c.rule.limits, FitsInt n) := by
  constructor
  · intro use huse
    rcases List.mem_append.mp huse with huse | huse
    · exact (Persistence.wellFormed_of_mem_attributeUses hpersistence use huse).exists_integers
    · exact (Constraint.wellFormed_of_mem_uses hvalidation use huse).exists_integers
  · have hcolumn := Persistence.attributeUses_fit_iff hpersistence
    have hlimits := Constraint.uses_fit_iff hvalidation
    rw [List.forall_mem_append]
    exact and_congr hcolumn hlimits

/-- An attribute with a long column. -/
def longText : Attribute :=
  { Attribute.plain "text" "String" with
    column := some { name := none, nullable := none, unique := none, length := some 2147483647 } }

/-- The greatest length and the least value fit. -/
theorem integers_fit_longText :
    ∃ persistence validation,
      Persistence.attributeUses false .entity longText = .ok persistence
        ∧ Constraint.uses false [.of (.min (some (-2147483648)))] = .ok validation
        ∧ (persistence ++ validation).map (·.text) = ["@Column(length=2147483647)", "@Min(value=-2147483648)"]
        ∧ ∀ use ∈ persistence ++ validation, ∀ n ∈ use.integers, FitsInt n := by
  obtain ⟨persistence, hpersistence, htexts⟩ : ∃ persistence,
      Persistence.attributeUses false .entity longText = .ok persistence
        ∧ persistence.map (·.text) = ["@Column(length=2147483647)"] := ⟨_, rfl, by decide +kernel⟩
  obtain ⟨validation, hvalidation, htexts'⟩ : ∃ validation,
      Constraint.uses false [.of (.min (some (-2147483648)))] = .ok validation
        ∧ validation.map (·.text) = ["@Min(value=-2147483648)"] := ⟨_, rfl, by decide +kernel⟩
  have hlength : ClassKind.entity.isManaged = true →
      ∀ column ∈ longText.column, ∀ length ∈ column.length, length.toNat ≤ 2147483647 := by
    rintro - column ⟨⟩ length ⟨⟩
    decide
  have hlimits : ∀ c ∈ [Constraint.of (.min (some (-2147483648)))], c.selected = true →
      ∀ n ∈ c.rule.limits, FitsInt n := by
    decide
  have hfits := (integers_fit_iff hpersistence hvalidation).2.mpr ⟨hlength, hlimits⟩
  exact ⟨persistence, validation, hpersistence, hvalidation, by rw [List.map_append, htexts, htexts']; rfl, hfits⟩

/-- A value of 33 bits is written all the same. -/
theorem integer_does_not_fit_min :
    ∃ use read, Constraint.uses false [.of (.min (some 3000000000))] = .ok [use]
      ∧ use.text = "@Min(value=3000000000)"
      ∧ AnnotationReading.ofText? use.text = some read
      ∧ read.integers = [3000000000]
      ∧ ¬FitsInt 3000000000 :=
  ⟨_, { name := "Min", elements := [("value", .one (.number 3000000000))] }, rfl, by decide +kernel, by decide +kernel,
    rfl, by decide⟩

end EntityForge
