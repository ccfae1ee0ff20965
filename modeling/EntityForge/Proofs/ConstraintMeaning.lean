import EntityForge.Synthesis.Validation
import EntityForge.Proofs.AnnotationReading
import EntityForge.Proofs.DecimalGrammar

/-!
# What validation annotations mean

A constraint of a metamodel and an annotation of a class both ask something of values. `Constraint.requirement?` says
what a constraint asks, and `Requirement.ofText?` what the text of an annotation asks, with every element that is not
stated at the default of its annotation.

Main statement: `constraint_means_its_requirement`, that the annotation of a constraint asks what the constraint asks,
whether or not defaults are written.
-/

namespace EntityForge

open Java

/-! ## Requirements -/

/-- What is asked of a value, with every option filled in. -/
inductive Demand where
  | marker (marker : Marker)
  | min (value : Int)
  | max (value : Int)
  | decimalMin (value : String) (inclusive : Bool)
  | decimalMax (value : String) (inclusive : Bool)
  | size (min max : Int)
  | digits (integer fraction : Int)
  | pattern (regexp : String) (flags : List PatternFlag)
  | email (regexp : String)
  deriving DecidableEq

/-- What is asked of a value, and the message when it is not given, unless that is the usual one. -/
structure Requirement where
  demand : Demand
  message : Option String
  deriving DecidableEq

/-- What a rule asks, if it has the options that it needs. -/
def Rule.demand? : Rule → Option Demand
  | .marker m => some (.marker m)
  | .min value => value.map fun n => .min n.toInt
  | .max value => value.map fun n => .max n.toInt
  | .decimalMin value inclusive => value.map fun value => .decimalMin (Text.trim value) (inclusive.getD true)
  | .decimalMax value inclusive => value.map fun value => .decimalMax (Text.trim value) (inclusive.getD true)
  | .size low high => some (.size ((low.map UInt32.toNat).getD 0) ((high.map UInt32.toNat).getD 2147483647))
  | .digits (some integer) (some fraction) => some (.digits integer.toNat fraction.toNat)
  | .digits _ _ => none
  | .pattern regexp flags => regexp.map fun regexp => .pattern regexp flags
  | .email regexp => some (.email ((regexp.filter (· != "")).getD ".*"))

/-- What a constraint asks, if its rule has the options that it needs. -/
def Constraint.requirement? (c : Constraint) : Option Requirement :=
  c.rule.demand?.map ({ demand := ·, message := c.message })

/-- Rules whose options contradict each other or their types. -/
inductive Rule.IllFormed : Rule → Prop
  | digits {integer fraction : Option UInt32} (h : integer = none ∨ fraction = none) :
      Rule.IllFormed (.digits integer fraction)
  | inverted {low high : UInt32} (h : high < low) : Rule.IllFormed (.size (some low) (some high))
  | tooLarge {low high : Option UInt32} {bound : UInt32} (hbound : low = some bound ∨ high = some bound)
      (h : 2147483647 < bound.toNat) : Rule.IllFormed (.size low high)
  | decimalMin {value : String} {inclusive : Option Bool} (h : ¬DecimalLiteral (Text.trim value).toList) :
      Rule.IllFormed (.decimalMin (some value) inclusive)
  | decimalMax {value : String} {inclusive : Option Bool} (h : ¬DecimalLiteral (Text.trim value).toList) :
      Rule.IllFormed (.decimalMax (some value) inclusive)

/-! ## Requirements of annotations -/

namespace Java

def ElementValue.text? : ElementValue → Option String
  | .one (.text value) => some value
  | _ => none

def ElementValue.number? : ElementValue → Option Int
  | .one (.number n) => some n
  | _ => none

def ElementValue.bool? : ElementValue → Option Bool
  | .one (.bool b) => some b
  | _ => none

/-- The flag that a constant names. -/
def Item.flag? : Item → Option PatternFlag
  | .name ["Pattern", "Flag", flag] => Spelled.ofWord? flag
  | _ => none

/-- The flags of an array, which may be written without braces when it has one element. -/
def ElementValue.flags? : ElementValue → Option (List PatternFlag)
  | .one item => item.flag?.map ([·])
  | .array items => items.mapM Item.flag?

/-- The value of an element, or its default when it is not stated. -/
def AnnotationReading.option {α : Type} (a : AnnotationReading) (read : ElementValue → Option α) (default : Option α)
    (key : String) : Option α :=
  (a.elements.lookup key).elim default read

end Java

/-- What an annotation asks, with the defaults of its elements. -/
def Demand.ofReading? (a : AnnotationReading) : Option Demand :=
  match a.name with
  | "Min" => (a.option ElementValue.number? none "value").map .min
  | "Max" => (a.option ElementValue.number? none "value").map .max
  | "DecimalMin" => do
    let value ← a.option ElementValue.text? none "value"
    let inclusive ← a.option ElementValue.bool? (some true) "inclusive"
    pure (.decimalMin value inclusive)
  | "DecimalMax" => do
    let value ← a.option ElementValue.text? none "value"
    let inclusive ← a.option ElementValue.bool? (some true) "inclusive"
    pure (.decimalMax value inclusive)
  | "Size" => do
    let low ← a.option ElementValue.number? (some 0) "min"
    let high ← a.option ElementValue.number? (some 2147483647) "max"
    pure (.size low high)
  | "Digits" => do
    let integer ← a.option ElementValue.number? none "integer"
    let fraction ← a.option ElementValue.number? none "fraction"
    pure (.digits integer fraction)
  | "Pattern" => do
    let regexp ← a.option ElementValue.text? none "regexp"
    let flags ← a.option ElementValue.flags? (some []) "flags"
    pure (.pattern regexp flags)
  | "Email" => (a.option ElementValue.text? (some ".*") "regexp").map .email
  | name => (Spelled.ofWord? name).map .marker

/-- The keys of the elements that belong to a demand. -/
def Demand.keys : Demand → List String
  | .marker _ => []
  | .min _ | .max _ => ["value"]
  | .decimalMin _ _ | .decimalMax _ _ => ["value", "inclusive"]
  | .size _ _ => ["min", "max"]
  | .digits _ _ => ["integer", "fraction"]
  | .pattern _ _ => ["regexp", "flags"]
  | .email _ => ["regexp"]

/-- What an annotation asks, and its message. It may state no other elements. -/
def Requirement.ofReading? (a : AnnotationReading) : Option Requirement := do
  let demand ← Demand.ofReading? a
  let message ← a.option (fun value => value.text?.map some) (some none) "message"
  if ∀ element ∈ a.elements, element.1 ∈ demand.keys ++ ["message"] then pure { demand, message } else none

/-- What the text of an annotation asks. -/
def Requirement.ofText? (s : String) : Option Requirement :=
  AnnotationReading.ofText? s >>= ofReading?

/-! ## What rules state -/

/-- The annotation states a form whose keys differ, and what is read of it is what the rule asks. -/
structure Rule.StatedBy (rule : Rule) (use : AnnotationUse) : Prop where
  name_eq : use.name = rule.annotationName
  form : ∃ form, use.States form ∧ (form.map Prod.fst ++ ["message"]).Nodup ∧ ∀ message : Option String,
    Requirement.ofReading?
        { name := rule.annotationName
          elements := stated (form ++ [("message", message.map fun text => .one (.text text))]) }
      = rule.demand?.map ({ demand := ·, message })

theorem rel_says_map {α : Type} {write : α → Value} {read : α → ElementValue}
    (h : ∀ a, (write a).Says (read a)) (option : Option α) :
    Option.Rel Value.Says (option.map write) (option.map read) := by
  cases option with
  | none => exact .none
  | some a => exact .some (h a)

theorem rel_says_ite {written : Bool} {v : Value} {e : ElementValue} (h : v.Says e) :
    Option.Rel Value.Says (if written then some v else none) (if written then some e else none) := by
  cases written with
  | true => exact .some h
  | false => exact .none

/-- The flags of a pattern are constants. -/
theorem constants_says_flags (flags : List PatternFlag) :
    (Value.constants "Pattern.Flag" (flags.map Spelled.spelling)).Says
      (.array (flags.map fun flag => .name ["Pattern", "Flag", Spelled.spelling flag])) := by
  have hidentifiers : ∀ name ∈ flags.map Spelled.spelling, ∀ part ∈ ["Pattern", "Flag"] ++ [name],
      isIdentifier part = true := by
    intro name hname
    obtain ⟨flag, -, rfl⟩ := List.mem_map.mp hname
    cases flag <;> decide
  have hsays := Value.Says.constants (List.cons_ne_nil "Pattern" ["Flag"]) hidentifiers
  rw [List.map_map] at hsays
  exact hsays

/-- A rule is stated by an annotation whose form gives back what the rule asks. -/
theorem Rule.StatedBy.of_form {rule : Rule} {use : AnnotationUse} {form : List (String × Option ElementValue)}
    (hname : use.name = rule.annotationName) (hform : use.States form)
    (hnodup : (form.map Prod.fst ++ ["message"]).Nodup) (hkeys : ∀ d ∈ rule.demand?, form.map Prod.fst = d.keys)
    (hdemand : ∀ a : AnnotationReading, a.name = rule.annotationName →
      (∀ key value, (key, value) ∈ form → a.elements.lookup key = value) → Demand.ofReading? a = rule.demand?) :
    rule.StatedBy use := by
  refine ⟨hname, form, hform, hnodup, fun message => ?_⟩
  have hnodup : ((form ++ [("message", message.map fun text => ElementValue.one (.text text))]).map
      Prod.fst).Nodup := by
    rwa [List.map_append]
  rw [Requirement.ofReading?, hdemand _ rfl fun key value h => lookup_stated_of_mem hnodup (List.mem_append_left _ h)]
  cases hd : rule.demand? with
  | none => rfl
  | some d =>
    have hread : AnnotationReading.option
        { name := rule.annotationName
          elements := stated (form ++ [("message", message.map fun text => .one (.text text))]) }
        (fun value => value.text?.map some) (some none) "message" = some message := by
      rw [AnnotationReading.option, lookup_stated_of_mem hnodup (List.mem_append_right _ List.mem_cons_self)]
      cases message <;> rfl
    have hallowed : ∀ element ∈ stated (form ++ [("message", message.map fun text => .one (.text text))]),
        element.1 ∈ d.keys ++ ["message"] := by
      intro element helement
      have hkey := (keys_stated_sublist _).subset (List.mem_map_of_mem helement)
      rw [List.map_append, hkeys d hd] at hkey
      exact hkey
    rw [Option.bind_eq_bind, Option.bind_some, hread, Option.bind_eq_bind, Option.bind_some, if_pos hallowed]
    rfl

/-! ## Options read back -/

section Options

variable {a : AnnotationReading} {key : String} {defaults : Bool}

theorem option_text {value : Option String} (default : Option String)
    (h : a.elements.lookup key = value.map fun text => .one (.text text)) :
    a.option ElementValue.text? default key = value.or default := by
  rw [AnnotationReading.option, h]
  cases value <;> rfl

theorem option_number {value : Option Int} (default : Option Int)
    (h : a.elements.lookup key = value.map fun n => .one (.number n)) :
    a.option ElementValue.number? default key = value.or default := by
  rw [AnnotationReading.option, h]
  cases value <;> rfl

/-- A flag that is left out is set. -/
theorem option_inclusive {inclusive : Bool}
    (h : a.elements.lookup key = if defaults || !inclusive then some (.one (.bool inclusive)) else none) :
    a.option ElementValue.bool? (some true) key = some inclusive := by
  rw [AnnotationReading.option, h]
  cases defaults <;> cases inclusive <;> rfl

/-- A bound that is left out is at its default. -/
theorem option_sizeBound {default n : Nat}
    (h : a.elements.lookup key = if defaults || n != default then some (.one (.number n)) else none) :
    a.option ElementValue.number? (some (default : Int)) key = some (n : Int) := by
  rw [AnnotationReading.option, h]
  by_cases hn : n = default
  · cases defaults <;> simp [hn, ElementValue.number?]
  · cases defaults <;> simp [hn, ElementValue.number?]

/-- Flags are read back, also when there are none. -/
theorem option_flags {flags : List PatternFlag}
    (h : a.elements.lookup key = if defaults || !flags.isEmpty then
        some (.array (flags.map fun flag => .name ["Pattern", "Flag", Spelled.spelling flag])) else none) :
    a.option ElementValue.flags? (some []) key = some flags := by
  have hflags : (flags.map fun flag => Item.name ["Pattern", "Flag", Spelled.spelling flag]).mapM Item.flag? =
      some flags := by
    refine mapM_eq_some_of_forall₂ ?_
    rw [List.forall₂_map_left_iff, List.forall₂_same]
    exact fun flag _ => Spelled.ofWord?_spelling flag
  rw [AnnotationReading.option, h]
  cases defaults <;> cases flags <;> first | rfl | exact hflags

end Options

/-! ## Annotations of rules -/

/-- A decimal bound is written when it is a decimal number. -/
theorem Rule.decimalUse_eq_ok {defaults : Bool} {name : String} {bound : Option String} {inclusive : Option Bool}
    {use : AnnotationUse} (h : decimalUse defaults name bound inclusive = .ok use) :
    use = ((validationUse name).arg? "value" ((bound.map Text.trim).map .text)).arg? "inclusive"
      (if defaults || !inclusive.getD true then some (.bool (inclusive.getD true)) else none) := by
  cases bound with
  | none =>
    cases h
    rfl
  | some value =>
    simp only [decimalUse, Option.map_some] at h
    split at h
    · cases h
      rfl
    · cases h

theorem states_validationUse (name : String) : (validationUse name).States [] :=
  .plain validationPackage name

namespace Rule.StatedBy

variable {defaults : Bool}

/-- A rule without options is stated by its name. -/
theorem marker (m : Marker) : (Rule.marker m).StatedBy (validationUse (Spelled.spelling m)) := by
  refine .of_form rfl (states_validationUse _) (by simp) (by simp [Rule.demand?, Demand.keys]) fun a hname _ => ?_
  rw [Demand.ofReading?, hname]
  cases m <;> rfl

theorem bound {rule : Rule} {value : Option Int64} (hrule : rule = .min value ∨ rule = .max value) :
    rule.StatedBy ((validationUse rule.annotationName).arg? "value" (value.map fun n => .int n.toInt)) := by
  have hwritten : (value.map fun n => Value.int n.toInt) = (value.map Int64.toInt).map .int := by
    rw [Option.map_map]
    rfl
  rw [hwritten]
  refine .of_form (by simp) ((states_validationUse _).arg? (by decide) (rel_says_map .int _)) (by simp) ?_
    fun a hname hlookup => ?_
  · rcases hrule with rfl | rfl <;> cases value <;> simp [Rule.demand?, Demand.keys]
  · have hvalue := option_number none (hlookup "value" _ List.mem_cons_self)
    rw [Demand.ofReading?, hname]
    rcases hrule with rfl | rfl <;> simp [Rule.annotationName, hvalue, Rule.demand?, Function.comp_def]

/-- A decimal bound is stated trimmed, and whether it is inclusive unless it is so by default. -/
theorem decimalBound {rule : Rule} {value : Option String} {inclusive : Option Bool}
    (hrule : rule = .decimalMin value inclusive ∨ rule = .decimalMax value inclusive) :
    rule.StatedBy (((validationUse rule.annotationName).arg? "value" ((value.map Text.trim).map .text)).arg? "inclusive"
      (if defaults || !inclusive.getD true then some (.bool (inclusive.getD true)) else none)) := by
  refine .of_form (by simp)
    (((states_validationUse _).arg? (by decide) (rel_says_map .text _)).arg? (by decide) (rel_says_ite (.bool _)))
    (by simp) ?_ fun a hname hlookup => ?_
  · rcases hrule with rfl | rfl <;> cases value <;> simp [Rule.demand?, Demand.keys]
  · have hvalue := option_text none (hlookup "value" _ List.mem_cons_self)
    have hinclusive := option_inclusive (hlookup "inclusive" _ (List.mem_append_right _ List.mem_cons_self))
    rw [Demand.ofReading?, hname]
    rcases hrule with rfl | rfl <;> cases value <;> simp [Rule.annotationName, hvalue, hinclusive, Rule.demand?]

/-- A size is stated by the bounds that are not at their defaults. -/
theorem size (low high : Option UInt32) :
    (Rule.size low high).StatedBy (((validationUse "Size").arg? "min" (sizeBound defaults 0 low)).arg? "max"
      (sizeBound defaults maxSize high)) := by
  refine .of_form (by simp [Rule.annotationName])
    (((states_validationUse "Size").arg? (by decide) (rel_says_ite (.int _))).arg? (by decide) (rel_says_ite (.int _)))
    (by simp) (by simp [Rule.demand?, Demand.keys]) fun a hname hlookup => ?_
  have hlow : a.option ElementValue.number? (some 0) "min" = some _ :=
    option_sizeBound (hlookup "min" _ List.mem_cons_self)
  have hhigh : a.option ElementValue.number? (some 2147483647) "max" = some _ :=
    option_sizeBound (hlookup "max" _ (List.mem_append_right _ List.mem_cons_self))
  rw [Demand.ofReading?, hname]
  simp [Rule.annotationName, hlow, hhigh, Rule.demand?, maxSize]

theorem digits (integer fraction : UInt32) :
    (Rule.digits (some integer) (some fraction)).StatedBy (((validationUse "Digits").arg "integer"
      (.int integer.toNat)).arg "fraction" (.int fraction.toNat)) := by
  refine .of_form rfl (((states_validationUse "Digits").arg? (by decide) (rel_says_map .int (some _))).arg? (by decide)
    (rel_says_map .int (some _))) (by simp) (by simp [Rule.demand?, Demand.keys]) fun a hname hlookup => ?_
  have hinteger := option_number none (hlookup "integer" _ List.mem_cons_self)
  have hfraction := option_number none (hlookup "fraction" _ (List.mem_append_right _ List.mem_cons_self))
  rw [Demand.ofReading?, hname]
  simp [Rule.annotationName, hinteger, hfraction, Rule.demand?]

/-- A pattern is stated with its flags, which are left out when there are none. -/
theorem pattern (regexp : Option String) (flags : List PatternFlag) :
    (Rule.pattern regexp flags).StatedBy (((validationUse "Pattern").arg? "regexp" (regexp.map .text)).arg? "flags"
      (if defaults || !flags.isEmpty then some (.constants "Pattern.Flag" (flags.map Spelled.spelling)) else none)) := by
  refine .of_form (by simp [Rule.annotationName])
    (((states_validationUse "Pattern").arg? (by decide) (rel_says_map .text regexp)).arg? (by decide)
      (rel_says_ite (constants_says_flags flags))) (by simp) ?_ fun a hname hlookup => ?_
  · cases regexp <;> simp [Rule.demand?, Demand.keys]
  · have hregexp := option_text none (hlookup "regexp" _ List.mem_cons_self)
    have hflags := option_flags (hlookup "flags" _ (List.mem_append_right _ List.mem_cons_self))
    rw [Demand.ofReading?, hname]
    cases regexp <;> simp [Rule.annotationName, hregexp, hflags, Rule.demand?]

/-- An address is stated by its pattern, or by the pattern of all texts where that is written at all. -/
theorem email (regexp : Option String) :
    (Rule.email regexp).StatedBy ((validationUse "Email").arg? "regexp"
      (((regexp.filter (· != "")).or (if defaults then some ".*" else none)).map .text)) := by
  refine .of_form (by simp [Rule.annotationName])
    ((states_validationUse "Email").arg? (by decide) (rel_says_map .text _)) (by simp)
    (by simp [Rule.demand?, Demand.keys]) fun a hname hlookup => ?_
  have hregexp := option_text (some ".*") (hlookup "regexp" _ List.mem_cons_self)
  rw [Demand.ofReading?, hname]
  simp only [Rule.annotationName, hregexp, Rule.demand?]
  cases regexp.filter (· != "") <;> cases defaults <;> rfl

end Rule.StatedBy

theorem Rule.use_size_eq_ok {defaults : Bool} {low high : Option UInt32} {use : AnnotationUse}
    (h : (Rule.size low high).use defaults = .ok use) :
    use = ((validationUse "Size").arg? "min" (sizeBound defaults 0 low)).arg? "max"
      (sizeBound defaults maxSize high) := by
  rw [Rule.use] at h
  cases hfault : sizeFault? low high with
  | some fault => simp [hfault] at h
  | none =>
    simp only [hfault] at h
    cases h
    rfl

/-- Digits are stated only when both of their options are. -/
theorem Rule.use_digits_eq_ok {defaults : Bool} {integer fraction : Option UInt32} {use : AnnotationUse}
    (h : (Rule.digits integer fraction).use defaults = .ok use) :
    ∃ i f : UInt32, integer = some i ∧ fraction = some f
      ∧ use = ((validationUse "Digits").arg "integer" (.int i.toNat)).arg "fraction" (.int f.toNat) := by
  cases integer with
  | none => cases h
  | some i =>
    cases fraction with
    | none => cases h
    | some f =>
      cases h
      exact ⟨i, f, rfl, rfl, rfl⟩

theorem Rule.use_email (defaults : Bool) (regexp : Option String) :
    (Rule.email regexp).use defaults = .ok ((validationUse "Email").arg? "regexp"
      (((regexp.filter (· != "")).or (if defaults then some ".*" else none)).map .text)) := by
  rw [Rule.use]
  cases regexp.filter (· != "") <;> cases defaults <;> rfl

/-- The annotation of a rule states what the rule asks. -/
theorem Rule.statedBy_of_use_eq_ok {defaults : Bool} {rule : Rule} {use : AnnotationUse}
    (h : rule.use defaults = .ok use) : rule.StatedBy use := by
  cases rule with
  | marker m =>
    cases h
    exact .marker m
  | min value =>
    cases h
    exact .bound (.inl rfl)
  | max value =>
    cases h
    exact .bound (.inr rfl)
  | decimalMin value inclusive =>
    rw [decimalUse_eq_ok h]
    exact .decimalBound (.inl rfl)
  | decimalMax value inclusive =>
    rw [decimalUse_eq_ok h]
    exact .decimalBound (.inr rfl)
  | size low high =>
    rw [use_size_eq_ok h]
    exact .size low high
  | digits integer fraction =>
    obtain ⟨i, f, rfl, rfl, rfl⟩ := use_digits_eq_ok h
    exact .digits i f
  | pattern regexp flags =>
    cases h
    exact .pattern regexp flags
  | email regexp =>
    rw [use_email] at h
    cases h
    exact .email regexp

/-! ## Rules that are refused -/

namespace Rule

theorem illFormed_size_iff {low high : Option UInt32} :
    (Rule.size low high).IllFormed ↔
      (∃ a ∈ low, ∃ b ∈ high, b < a) ∨ (∃ n ∈ low, 2147483647 < n.toNat) ∨ ∃ n ∈ high, 2147483647 < n.toNat := by
  constructor
  · intro h
    cases h with
    | inverted h => exact .inl ⟨_, rfl, _, rfl, h⟩
    | tooLarge hbound h =>
      rcases hbound with rfl | rfl
      · exact .inr (.inl ⟨_, rfl, h⟩)
      · exact .inr (.inr ⟨_, rfl, h⟩)
  · rintro (⟨a, rfl, b, rfl, h⟩ | ⟨n, rfl, h⟩ | ⟨n, rfl, h⟩)
    · exact .inverted h
    · exact .tooLarge (.inl rfl) h
    · exact .tooLarge (.inr rfl) h

/-- The bounds of a size are refused exactly when they are ill-formed. -/
theorem sizeFault?_eq_none_iff {low high : Option UInt32} :
    sizeFault? low high = none ↔ ¬(Rule.size low high).IllFormed := by
  have hmax : ∀ n : Nat, 2147483647 < n ↔ maxSize < n := fun _ => Iff.rfl
  simp only [illFormed_size_iff, hmax]
  cases low with
  | none => cases high <;> simp [sizeFault?]
  | some a =>
    cases high with
    | none => simp [sizeFault?]
    | some b =>
      have hinverted : a ≤ b ↔ ¬b < a := UInt32.not_lt.symm
      simp only [sizeFault?, Option.any_some, decide_eq_true_eq]
      split_ifs <;> simp_all

/-- A decimal bound is refused exactly when it is no decimal number. -/
theorem decimalUse_outcome (name value : String) (inclusive : Option Bool) :
    (¬DecimalLiteral (Text.trim value).toList ∧
        ∃ fault, ∀ defaults, decimalUse defaults name (some value) inclusive = .error fault)
      ∨ (DecimalLiteral (Text.trim value).toList ∧
        ∀ defaults, ∃ use, decimalUse defaults name (some value) inclusive = .ok use) := by
  by_cases hdecimal : isDecimal (Text.trim value) = true
  · refine .inr ⟨isDecimalChars_iff.mp hdecimal, fun defaults => ?_⟩
    simp only [decimalUse, Option.map_some, if_pos hdecimal]
    exact ⟨_, rfl⟩
  · refine .inl ⟨fun h => hdecimal (isDecimalChars_iff.mpr h), .notDecimal name (Text.trim value), fun defaults => ?_⟩
    simp only [decimalUse, Option.map_some, if_neg hdecimal]

/-- Whether a rule is refused, and for which fault, does not depend on whether defaults are written. -/
theorem use_outcome (rule : Rule) :
    (rule.IllFormed ∧ ∃ fault, ∀ defaults, rule.use defaults = .error fault)
      ∨ (¬rule.IllFormed ∧ ∀ defaults, ∃ use, rule.use defaults = .ok use) := by
  cases rule with
  | marker m => exact .inr ⟨nofun, fun _ => ⟨_, rfl⟩⟩
  | min value | max value => exact .inr ⟨nofun, fun _ => ⟨_, rfl⟩⟩
  | decimalMin value inclusive =>
    cases value with
    | none => exact .inr ⟨nofun, fun _ => ⟨_, rfl⟩⟩
    | some value =>
      rcases decimalUse_outcome "DecimalMin" value inclusive with ⟨hvalue, hfault⟩ | ⟨hvalue, huse⟩
      · exact .inl ⟨.decimalMin hvalue, hfault⟩
      · refine .inr ⟨fun hill => ?_, huse⟩
        cases hill with
        | decimalMin h => exact h hvalue
  | decimalMax value inclusive =>
    cases value with
    | none => exact .inr ⟨nofun, fun _ => ⟨_, rfl⟩⟩
    | some value =>
      rcases decimalUse_outcome "DecimalMax" value inclusive with ⟨hvalue, hfault⟩ | ⟨hvalue, huse⟩
      · exact .inl ⟨.decimalMax hvalue, hfault⟩
      · refine .inr ⟨fun hill => ?_, huse⟩
        cases hill with
        | decimalMax h => exact h hvalue
  | size low high =>
    cases hfault : sizeFault? low high with
    | none =>
      refine .inr ⟨sizeFault?_eq_none_iff.mp hfault, fun defaults => ?_⟩
      simp only [use, hfault]
      exact ⟨_, rfl⟩
    | some fault =>
      refine .inl ⟨?_, fault, fun defaults => by simp only [use, hfault]⟩
      by_contra hwell
      rw [sizeFault?_eq_none_iff.mpr hwell] at hfault
      cases hfault
  | digits integer fraction =>
    cases integer with
    | none => exact .inl ⟨.digits (.inl rfl), _, fun _ => rfl⟩
    | some i =>
      cases fraction with
      | none => exact .inl ⟨.digits (.inr rfl), _, fun _ => rfl⟩
      | some f =>
        refine .inr ⟨?_, fun _ => ⟨_, rfl⟩⟩
        rintro ⟨h⟩
        rcases h with h | h <;> cases h
  | pattern regexp flags => exact .inr ⟨nofun, fun _ => ⟨_, rfl⟩⟩
  | email regexp =>
    refine .inr ⟨nofun, fun defaults => ?_⟩
    rw [use]
    cases regexp.filter (· != "") with
    | some value => exact ⟨_, rfl⟩
    | none => exact ⟨_, rfl⟩

/-- A rule that is neither empty nor ill-formed asks something. -/
theorem exists_demand {c : Constraint} (hempty : c.isEmpty = false) (hwell : ¬c.rule.IllFormed) :
    ∃ demand, c.rule.demand? = some demand := by
  obtain ⟨selected, message, rule⟩ := c
  cases rule with
  | marker m => exact ⟨_, rfl⟩
  | min value | max value =>
    cases value with
    | none => cases hempty
    | some n => exact ⟨_, rfl⟩
  | decimalMin value inclusive | decimalMax value inclusive =>
    cases value with
    | none => cases hempty
    | some value => exact ⟨_, rfl⟩
  | size low high => exact ⟨_, rfl⟩
  | digits integer fraction =>
    cases integer with
    | none => exact absurd (.digits (.inl rfl)) hwell
    | some i =>
      cases fraction with
      | none => exact absurd (.digits (.inr rfl)) hwell
      | some f => exact ⟨_, rfl⟩
  | pattern regexp flags =>
    cases regexp with
    | none => cases hempty
    | some regexp => exact ⟨_, rfl⟩
  | email regexp => exact ⟨_, rfl⟩

theorem isIdentifier_annotationName (rule : Rule) : isIdentifier rule.annotationName = true := by
  cases rule with
  | marker m => cases m <;> decide
  | _ =>
    rw [annotationName]
    decide

/-- With its message, the annotation of a rule is read as what the rule asks. -/
theorem StatedBy.ofText?_text {rule : Rule} {use : AnnotationUse} (h : rule.StatedBy use) (message : Option String) :
    Requirement.ofText? (use.arg? "message" (message.map .text)).text
      = rule.demand?.map ({ demand := ·, message }) := by
  obtain ⟨hname, form, hform, hnodup, hread⟩ := h
  have hstates := hform.arg? (by decide : isIdentifier "message" = true) (rel_says_map .text message)
  have hidentifier : isIdentifier (use.arg? "message" (message.map .text)).name = true := by
    rw [AnnotationUse.name_arg?, hname]
    exact isIdentifier_annotationName rule
  have hkeys : ((form ++ [("message", message.map fun text => ElementValue.one (.text text))]).map
      Prod.fst).Nodup := by
    rwa [List.map_append]
  rw [Requirement.ofText?, hstates.ofText?_text hidentifier hkeys, AnnotationUse.name_arg?, hname,
    Option.bind_eq_bind, Option.bind_some]
  exact hread message

end Rule

/-! ## Constraints -/

/-- What becomes of a constraint, whether or not defaults are written. -/
theorem Constraint.use?_outcome (c : Constraint) :
    ((c.selected = false ∨ c.isEmpty = true) ∧ ∀ defaults, c.use? defaults = .ok none)
      ∨ ((c.selected = true ∧ c.isEmpty = false) ∧
        ((c.rule.IllFormed ∧ ∃ fault, ∀ defaults, c.use? defaults = .error fault)
          ∨ (¬c.rule.IllFormed ∧ ∃ requirement, c.requirement? = some requirement ∧
            ∀ defaults, ∃ use, c.use? defaults = .ok (some use) ∧
              Requirement.ofText? use.text = some requirement))) := by
  by_cases hskipped : (!c.selected || c.isEmpty) = true
  · refine .inl ⟨by simpa using hskipped, fun defaults => ?_⟩
    rw [use?, if_pos hskipped]
  have hkept : c.selected = true ∧ c.isEmpty = false := by simpa using hskipped
  refine .inr ⟨hkept, ?_⟩
  rcases c.rule.use_outcome with ⟨hill, fault, hfault⟩ | ⟨hwell, huse⟩
  · refine .inl ⟨hill, fault, fun defaults => ?_⟩
    rw [use?, if_neg hskipped, hfault]
    rfl
  · obtain ⟨demand, hdemand⟩ := Rule.exists_demand hkept.2 hwell
    have hrequirement : c.requirement? = some { demand, message := c.message } := by
      rw [requirement?, hdemand]
      rfl
    refine .inr ⟨hwell, _, hrequirement, fun defaults => ?_⟩
    obtain ⟨use, huse⟩ := huse defaults
    refine ⟨use.arg? "message" (c.message.map .text), ?_, ?_⟩
    · rw [use?, if_neg hskipped, huse]
      rfl
    · rw [(Rule.statedBy_of_use_eq_ok huse).ofText?_text, hdemand]
      rfl

/-- The annotation of a constraint is read as what the constraint asks. -/
theorem Constraint.exists_requirement {c : Constraint} {defaults : Bool} {use : AnnotationUse}
    (h : c.use? defaults = .ok (some use)) :
    ∃ requirement, c.requirement? = some requirement ∧ Requirement.ofText? use.text = some requirement := by
  rcases c.use?_outcome with ⟨-, hnone⟩ | ⟨-, ⟨-, fault, hfault⟩ | ⟨-, requirement, hrequirement, huse⟩⟩
  · rw [hnone defaults] at h
    cases h
  · rw [hfault defaults] at h
    cases h
  · obtain ⟨use', huse', hread⟩ := huse defaults
    rw [huse'] at h
    cases h
    exact ⟨requirement, hrequirement, hread⟩

/-- **Annotations mean what constraints say**: a constraint is left out exactly when it is unselected or empty, and
refused exactly when it is ill-formed otherwise; its annotation, read back with all defaults filled in, asks what the
constraint asks. Whether defaults are written changes none of this, and the text tells constraints apart that ask
different things. -/
theorem constraint_means_its_requirement (c : Constraint) :
    (∀ defaults, c.use? defaults = .ok none ↔ c.selected = false ∨ c.isEmpty = true) ∧
    (∀ defaults, (∃ fault, c.use? defaults = .error fault) ↔
      (c.selected = true ∧ c.isEmpty = false) ∧ c.rule.IllFormed) ∧
    (∀ defaults use, c.use? defaults = .ok (some use) →
      ∃ requirement, c.requirement? = some requirement ∧ Requirement.ofText? use.text = some requirement) ∧
    (c.use? true).map (Option.map fun use => Requirement.ofText? use.text) =
      (c.use? false).map (Option.map fun use => Requirement.ofText? use.text) ∧
    ∀ (c' : Constraint) (defaults defaults' : Bool) (use use' : AnnotationUse),
      c.use? defaults = .ok (some use) → c'.use? defaults' = .ok (some use') → use.text = use'.text →
        c.requirement? = c'.requirement? := by
  refine ⟨fun defaults => ?_, fun defaults => ?_, fun _ _ => Constraint.exists_requirement, ?_, ?_⟩
  · rcases c.use?_outcome with ⟨hskipped, hnone⟩ | ⟨hkept, ⟨-, fault, hfault⟩ | ⟨-, _, -, huse⟩⟩
    · exact iff_of_true (hnone defaults) hskipped
    · rw [hfault defaults]
      simp [hkept]
    · obtain ⟨use, huse, -⟩ := huse defaults
      rw [huse]
      simp [hkept]
  · rcases c.use?_outcome with ⟨hskipped, hnone⟩ | ⟨hkept, ⟨hill, fault, hfault⟩ | ⟨hwell, _, -, huse⟩⟩
    · rw [hnone defaults]
      rcases hskipped with h | h <;> simp [h]
    · exact iff_of_true ⟨fault, hfault defaults⟩ ⟨hkept, hill⟩
    · obtain ⟨use, huse, -⟩ := huse defaults
      rw [huse]
      simp [hwell]
  · rcases c.use?_outcome with ⟨-, hnone⟩ | ⟨-, ⟨-, fault, hfault⟩ | ⟨-, _, -, huse⟩⟩
    · rw [hnone true, hnone false]
    · rw [hfault true, hfault false]
    · obtain ⟨use, hon, hread⟩ := huse true
      obtain ⟨use', hoff, hread'⟩ := huse false
      rw [hon, hoff]
      simp [Except.map, hread, hread']
  · intro c' defaults defaults' use use' h h' htext
    obtain ⟨requirement, hrequirement, hread⟩ := Constraint.exists_requirement h
    obtain ⟨requirement', hrequirement', hread'⟩ := Constraint.exists_requirement h'
    rw [hrequirement, hrequirement', ← hread, ← hread', htext]

/-- A pattern with quotes, a backslash and a flag, and a message of two lines. -/
def quotedWord : Constraint :=
  { selected := true, message := some "say \"word\"\nor nothing",
    rule := .pattern (some "\"\\w+\"") [.caseInsensitive] }

/-- Quotes, the backslash and the line feed are escaped where they are written, and come back when they are read. -/
theorem constraint_means_its_requirement_quotedWord :
    ∃ use, quotedWord.use? false = .ok (some use)
      ∧ use.text = "@Pattern(regexp=\"\\\"\\\\w+\\\"\", flags=\x7bPattern.Flag.CASE_INSENSITIVE\x7d, "
          ++ "message=\"say \\\"word\\\"\\nor nothing\")"
      ∧ Requirement.ofText? use.text =
        some { demand := .pattern "\"\\w+\"" [.caseInsensitive], message := some "say \"word\"\nor nothing" } := by
  obtain ⟨use, huse, htext⟩ : ∃ use, quotedWord.use? false = .ok (some use)
      ∧ use.text = "@Pattern(regexp=\"\\\"\\\\w+\\\"\", flags=\x7bPattern.Flag.CASE_INSENSITIVE\x7d, "
          ++ "message=\"say \\\"word\\\"\\nor nothing\")" := ⟨_, rfl, by decide⟩
  obtain ⟨requirement, hrequirement, hread⟩ := (constraint_means_its_requirement quotedWord).2.2.1 false use huse
  cases hrequirement
  exact ⟨use, huse, htext, hread⟩

end EntityForge
