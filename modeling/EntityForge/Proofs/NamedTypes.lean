import EntityForge.Proofs.ConstraintMeaning
import EntityForge.Synthesis.Binding
import EntityForge.Synthesis.Persistence

/-!
# Types that annotations name

An annotation names its own type, and in its arguments the types of constants and of class literals. Each of these is
the last part of a type that the code of the annotation needs (`AnnotationUse.Closed`), for the annotations of
persistence, of binding and of validation alike. All of them are well formed (`AnnotationUse.WellFormed`): they can be
read, and name nothing but what they state.

Main statements: `Persistence.closed_of_mem_classUses`, `Persistence.closed_of_mem_attributeUses`,
`ClassBinding.closed_of_mem_uses`, `AttributeBinding.closed_of_mem_uses` and `Constraint.closed_of_mem_uses`.
-/

namespace EntityForge

namespace Java

/-! ## Named types -/

/-- The type in which a type lies, which is the type itself when it lies in no other. -/
def outermost (type : String) : String :=
  String.ofList (type.toList.takeWhile (· != '.'))

/-- The types that a value names: those of its constants, and those of class literals. -/
def Value.namedTypes : Value → List String
  | .constant type _ => [outermost type]
  | .classLiteral type => [type]
  | .constants type names => names.map fun _ => outermost type
  | _ => []

/-- The types that are named where a value is read: what stands before the first point. -/
def Item.namedTypes : Item → List String
  | .name parts => parts.head?.toList
  | _ => []

def ElementValue.namedTypes : ElementValue → List String
  | .one item => item.namedTypes
  | .array items => items.flatMap Item.namedTypes

/-- The types that are named in the elements of an annotation. -/
def AnnotationReading.namedTypes (a : AnnotationReading) : List String :=
  a.elements.flatMap fun element => element.2.namedTypes

namespace AnnotationUse

/-- The code of the annotation needs a type whose last part is the name. -/
def Needs (use : AnnotationUse) (name : String) : Prop :=
  ∃ type ∈ use.code.imports, simpleName type = name

/-- The annotation needs all types that it names. No argument is raw code, and the text can be read when each class
literal is one of an identifier. -/
structure Closed (use : AnnotationUse) : Prop where
  own : use.Needs use.name
  composed : ∀ a ∈ use.arguments, ∀ raw, a.value ≠ .code raw
  named : ∀ a ∈ use.arguments, ∀ name ∈ a.value.namedTypes, use.Needs name
  read : (∀ a ∈ use.arguments, ∀ type, a.value = .classLiteral type → isIdentifier type = true) →
    ∃ read, AnnotationReading.ofText? use.text = some read ∧ read.name = use.name
      ∧ ∀ name ∈ read.namedTypes, use.Needs name

end AnnotationUse

theorem outermost_intercalate {first : String} (h : '.' ∉ first.toList) (rest : List String) :
    outermost (".".intercalate (first :: rest)) = first := by
  have hall : ∀ c ∈ first.toList, (c != '.') = true := by
    intro c hc
    rw [bne_iff_ne]
    rintro rfl
    exact h hc
  rw [outermost, String.toList_intercalate]
  cases rest with
  | nil =>
    have hself : (first.toList ++ []).takeWhile (· != '.') = first.toList ++ [] := List.takeWhile_append_of_pos hall
    rw [List.append_nil] at hself
    rw [List.map_singleton, List.intercalate_singleton, hself, String.ofList_toList]
  | cons second others =>
    rw [List.map_cons, List.map_cons, List.intercalate_cons_cons, List.append_assoc, List.takeWhile_append_of_pos hall]
    simp

/-- What is read of a value names the types that the value names. -/
theorem Value.Says.namedTypes_eq {v : Value} {e : ElementValue} (h : v.Says e) : e.namedTypes = v.namedTypes := by
  have hlead : ∀ {type : List String} (name : String), type ≠ [] → (∀ part ∈ type, isIdentifier part = true) →
      (Item.name (type ++ [name])).namedTypes = [outermost (".".intercalate type)] := by
    intro type name hne hparts
    cases type with
    | nil => exact absurd rfl hne
    | cons first rest =>
      rw [outermost_intercalate (dot_not_mem_of_isIdentifier (hparts first List.mem_cons_self))]
      rfl
  cases h with
  | text value => rfl
  | int n => rfl
  | bool b => rfl
  | constant hne hparts => exact hlead _ hne fun part hpart => hparts part (List.mem_append_left _ hpart)
  | classLiteral htype => rfl
  | texts values => simp [ElementValue.namedTypes, Value.namedTypes, Item.namedTypes]
  | constants hne hparts =>
    rw [ElementValue.namedTypes, Value.namedTypes, List.flatMap_map, ← List.flatMap_pure_eq_map]
    refine List.flatMap_congr fun name hname => ?_
    exact hlead name hne fun part hpart => hparts name hname part (List.mem_append_left _ hpart)

/-! ## Values that fit an annotation -/

/-- A value fits an annotation: it says something, unless it is a class literal of no identifier, and the types that it
names are the annotation's own or stated with it. -/
structure Value.Fits (v : Value) (use : AnnotationUse) : Prop where
  readable : (∀ type, v = .classLiteral type → isIdentifier type = true) → ∃ e, v.Says e
  named : ∀ name ∈ v.namedTypes, name = use.name ∨ ∃ type ∈ use.types, simpleName type = name

namespace Value.Fits

variable {use : AnnotationUse}

theorem text (value : String) : (Value.text value).Fits use :=
  ⟨fun _ => ⟨_, .text value⟩, by simp [Value.namedTypes]⟩

theorem int (n : Int) : (Value.int n).Fits use :=
  ⟨fun _ => ⟨_, .int n⟩, by simp [Value.namedTypes]⟩

theorem bool (b : Bool) : (Value.bool b).Fits use :=
  ⟨fun _ => ⟨_, .bool b⟩, by simp [Value.namedTypes]⟩

theorem texts (values : List String) : (Value.texts values).Fits use :=
  ⟨fun _ => ⟨_, .texts values⟩, by simp [Value.namedTypes]⟩

/-- A constant fits when its enumeration is stated with the annotation. -/
theorem constant {type name : String} (htype : isIdentifier type = true) (hname : isIdentifier name = true)
    (h : ∃ t ∈ use.types, simpleName t = type) : (Value.constant type name).Fits use := by
  have hwritten : ".".intercalate [type] = type := String.intercalate_singleton
  have houtermost : outermost type = type := by
    have houter := outermost_intercalate (dot_not_mem_of_isIdentifier htype) []
    rwa [hwritten] at houter
  constructor
  · have hparts : ∀ part ∈ [type] ++ [name], isIdentifier part = true := by
      intro part hpart
      rcases List.mem_pair.mp hpart with rfl | rfl
      · exact htype
      · exact hname
    have hsays := Value.Says.constant (List.cons_ne_nil type []) hparts
    rw [hwritten] at hsays
    exact fun _ => ⟨_, hsays⟩
  · rw [Value.namedTypes, houtermost]
    intro other hother
    rw [List.mem_singleton.mp hother]
    exact .inr h

/-- The literal of a class fits when the class is stated with the annotation. -/
theorem classLiteral {type : String} (h : type ∈ use.types) : (Value.classLiteral (simpleName type)).Fits use := by
  refine ⟨fun hidentifier => ⟨_, .classLiteral (hidentifier _ rfl)⟩, fun name hname => ?_⟩
  rw [List.mem_singleton.mp hname]
  exact .inr ⟨type, h, rfl⟩

/-- The flags of a pattern fit the annotation in whose type they lie. -/
theorem flags (hname : use.name = "Pattern") (flags : List PatternFlag) :
    (Value.constants "Pattern.Flag" (flags.map Spelled.spelling)).Fits use := by
  refine ⟨fun _ => ⟨_, constants_says_flags flags⟩, fun name hmem => .inl ?_⟩
  obtain ⟨_, -, rfl⟩ := List.mem_map.mp hmem
  rw [hname]
  decide

/-- A value that may be left out fits where it fits when it is written. -/
theorem ite {v : Value} (h : v.Fits use) {written : Bool} :
    ∀ other ∈ (if written then some v else none), other.Fits use := by
  cases written with
  | true =>
    rintro _ ⟨⟩
    exact h
  | false =>
    rintro _ ⟨⟩

theorem map {α : Type} {write : α → Value} (h : ∀ a, (write a).Fits use) {option : Option α} :
    ∀ v ∈ option.map write, v.Fits use := by
  intro v hv
  obtain ⟨a, -, rfl⟩ := Option.map_eq_some_iff.mp hv
  exact h a

end Value.Fits

/-! ## Annotations whose arguments fit -/

namespace AnnotationUse

variable {use : AnnotationUse} {keys : List String}

/-- The arguments of an annotation fit it, and their keys are among those of a list, in its order. -/
structure Follows (use : AnnotationUse) (keys : List String) : Prop where
  keys : (use.arguments.map Argument.key).Sublist (keys.map some)
  fits : ∀ a ∈ use.arguments, a.value.Fits use

namespace Follows

theorem plain (package name : String) : (AnnotationUse.plain package name).Follows [] :=
  ⟨List.Sublist.refl [], by simp [AnnotationUse.plain]⟩

/-- A key that the annotation does not state may be added to the list. -/
theorem weaken (h : use.Follows keys) (key : String) : use.Follows (keys ++ [key]) := by
  refine ⟨?_, h.fits⟩
  rw [List.map_append]
  exact h.keys.trans (List.sublist_append_left _ _)

theorem arg? (h : use.Follows keys) (key : String) {value : Option Value} (hvalue : ∀ v ∈ value, v.Fits use) :
    (use.arg? key value).Follows (keys ++ [key]) := by
  cases value with
  | none => exact h.weaken key
  | some v =>
    refine ⟨?_, fun a ha => ?_⟩
    · rw [arguments_arg?, List.map_append, List.map_append]
      exact h.keys.append (List.Sublist.refl _)
    · have hfits : a.value.Fits use := by
        rcases List.mem_append.mp ha with ha | ha
        · exact h.fits a ha
        · rw [List.mem_singleton.mp ha]
          exact hvalue v rfl
      exact ⟨hfits.readable, hfits.named⟩

theorem arg (h : use.Follows keys) (key : String) {v : Value} (hfits : v.Fits use) :
    (use.arg key v).Follows (keys ++ [key]) := by
  have hvalue : ∀ other ∈ some v, other.Fits use := by
    rintro _ ⟨⟩
    exact hfits
  exact h.arg? key hvalue

theorem naming (h : use.Follows keys) (type : String) : (use.naming type).Follows keys := by
  refine ⟨h.keys, fun a ha => ⟨(h.fits a ha).readable, fun name hname => ?_⟩⟩
  rcases (h.fits a ha).named name hname with hown | ⟨stated, hstated, hlast⟩
  · exact .inl hown
  · exact .inr ⟨stated, List.mem_append_left _ hstated, hlast⟩

end Follows

/-- The elements that arguments under different keys say. -/
theorem exists_elements {arguments : List Argument} (h : ∀ a ∈ arguments, ∃ e, a.value.Says e) {keys : List String}
    (hkeys : arguments.map Argument.key = keys.map some) (hidentifiers : ∀ key ∈ keys, isIdentifier key = true) :
    ∃ elements : List (String × ElementValue), elements.map Prod.fst = keys
      ∧ List.Forall₂ Argument.Says arguments (elements.map fun (key, value) => (some key, value)) := by
  induction arguments generalizing keys with
  | nil => exact ⟨[], by simpa using hkeys, .nil⟩
  | cons a rest ih =>
    obtain ⟨key, value⟩ := a
    cases keys with
    | nil => cases hkeys
    | cons first others =>
      rw [List.map_cons, List.map_cons, List.cons.injEq] at hkeys
      obtain ⟨rfl, hothers⟩ := hkeys
      obtain ⟨e, he⟩ := h _ List.mem_cons_self
      obtain ⟨elements, hfst, hsays⟩ := ih (fun a ha => h a (List.mem_cons_of_mem _ ha)) hothers
        fun key hkey => hidentifiers key (List.mem_cons_of_mem _ hkey)
      exact ⟨(first, e) :: elements, by rw [List.map_cons, hfst],
        .cons (.keyed (hidentifiers first List.mem_cons_self) he) hsays⟩

/-- The name of the annotation is an identifier, its arguments fit it, and they can be read together when each of them
says something. -/
structure WellFormed (use : AnnotationUse) : Prop where
  identifier : isIdentifier use.name = true
  fits : ∀ a ∈ use.arguments, a.value.Fits use
  elements : (∀ a ∈ use.arguments, ∃ e, a.value.Says e) →
    ∃ elements read, List.Forall₂ Argument.Says use.arguments elements ∧ keyed? elements = some read

namespace WellFormed

/-- Such an annotation says something, when each class literal is one of an identifier. -/
theorem exists_says (h : use.WellFormed)
    (hliterals : ∀ a ∈ use.arguments, ∀ type, a.value = .classLiteral type → isIdentifier type = true) :
    ∃ read, use.Says read := by
  obtain ⟨elements, read, hsays, hkeyed⟩ := h.elements fun a ha => (h.fits a ha).readable (hliterals a ha)
  exact ⟨{ name := use.name, elements := read }, h.identifier, rfl, elements, hsays, hkeyed⟩

/-- Such an annotation needs the types that it names. -/
theorem closed (h : use.WellFormed) : use.Closed := by
  have hown : use.Needs use.name :=
    ⟨_, mem_imports_code.mpr (.inl rfl), simpleName_append (dot_not_mem_of_isIdentifier h.identifier)⟩
  have hnamed : ∀ a ∈ use.arguments, ∀ name ∈ a.value.namedTypes, use.Needs name := by
    intro a ha name hmem
    rcases (h.fits a ha).named name hmem with rfl | ⟨type, htype, hlast⟩
    · exact hown
    · exact ⟨type, mem_imports_code.mpr (.inr htype), hlast⟩
  refine ⟨hown, fun a ha raw hraw => ?_, hnamed, fun hliterals => ?_⟩
  · obtain ⟨e, he⟩ := (h.fits a ha).readable (by simp [hraw])
    rw [hraw] at he
    cases he
  · obtain ⟨read, hread⟩ := h.exists_says hliterals
    refine ⟨read, hread.ofText?_text, hread.name_eq, fun name hmem => ?_⟩
    -- What is read under a key is what some argument says, and an argument that fits names nothing else.
    obtain ⟨elements, hsays, hkeyed⟩ := hread.elements
    obtain ⟨entry, hentry, hmem⟩ := List.mem_flatMap.mp hmem
    obtain ⟨element, helement, hvalue⟩ :=
      List.mem_map.mp (map_snd_of_keyed?_eq_some hkeyed ▸ List.mem_map_of_mem hentry)
    obtain ⟨a, ha, hsaid⟩ := exists_mem_right_of_forall₂ hsays.flip helement
    refine hnamed a ha name ?_
    rw [← hvalue] at hmem
    cases hsaid with
    | keyed _ hsaid => rwa [← hsaid.namedTypes_eq]
    | single hsaid => rwa [← hsaid.namedTypes_eq]

end WellFormed

/-- An annotation is well formed when its arguments follow different keys. -/
theorem Follows.wellFormed (h : use.Follows keys) (hname : isIdentifier use.name = true)
    (hkeys : keys.Nodup ∧ ∀ key ∈ keys, isIdentifier key = true) : use.WellFormed := by
  refine ⟨hname, h.fits, fun hsays => ?_⟩
  obtain ⟨stated, hstated, heq⟩ := List.sublist_map_iff.mp h.keys
  obtain ⟨elements, hfst, hsays⟩ := exists_elements hsays heq fun key hkey => hkeys.2 key (hstated.subset hkey)
  exact ⟨_, elements, hsays, keyed?_map_some (hfst ▸ hstated.nodup hkeys.1)⟩

/-- An annotation is well formed when it has a single argument without a key. -/
theorem WellFormed.of_value {v : Value} (harguments : use.arguments = [{ key := none, value := v }])
    (hname : isIdentifier use.name = true) (hfits : v.Fits use) : use.WellFormed := by
  refine ⟨hname, by simpa [harguments] using hfits, fun hsays => ?_⟩
  obtain ⟨e, he⟩ := hsays _ (harguments ▸ List.mem_cons_self)
  exact ⟨[(none, e)], [("value", e)], harguments ▸ .cons (.single he) .nil, rfl⟩

end AnnotationUse

end Java

open Java AnnotationUse

/-! ## Annotations of persistence -/

namespace Persistence

variable {base : AnnotationUse} {keys : List String} {defaults : Bool}

section Constants

variable {α : Type} [Spelled α] {enumeration : String} {constant : α}

/-- A constant of the persistence package fits where its enumeration is stated. -/
theorem fits_constant (henumeration : isIdentifier enumeration = true)
    (hconstant : isIdentifier (Spelled.spelling constant) = true) :
    (Value.constant enumeration (Spelled.spelling constant)).Fits (base.naming (type enumeration)) := by
  refine .constant henumeration hconstant ⟨type enumeration, List.mem_append_right _ List.mem_cons_self, ?_⟩
  exact simpleName_append (dot_not_mem_of_isIdentifier henumeration)

theorem follows_withConstant (h : base.Follows keys) (key : String) (henumeration : isIdentifier enumeration = true)
    (hconstant : isIdentifier (Spelled.spelling constant) = true) :
    (withConstant base (some key) enumeration constant).Follows (keys ++ [key]) :=
  (h.naming (type enumeration)).arg key (fits_constant henumeration hconstant)

theorem wellFormed_withConstant {name : String} (hname : isIdentifier name = true)
    (henumeration : isIdentifier enumeration = true) (hconstant : isIdentifier (Spelled.spelling constant) = true) :
    (withConstant (use name) none enumeration constant).WellFormed :=
  .of_value rfl hname (fits_constant henumeration hconstant)

end Constants

theorem follows_use (name : String) : (use name).Follows [] :=
  .plain persistencePackage name

theorem wellFormed_use {name : String} (hname : isIdentifier name = true) : (use name).WellFormed :=
  (follows_use name).wellFormed hname (by simp)

theorem follows_fetching (h : base.Follows keys) (fetch : Option Fetch) :
    (fetching base fetch).Follows (keys ++ ["fetch"]) := by
  cases fetch with
  | none => exact h.weaken "fetch"
  | some fetch => exact follows_withConstant h "fetch" (by decide) (by cases fetch <;> decide)

theorem wellFormed_relationship {name : String} (hname : isIdentifier name = true) (relation : Relation) :
    (relationship name relation).WellFormed := by
  have hfollows : (relationship name relation).Follows ["mappedBy", "optional", "fetch"] :=
    follows_fetching (((follows_use name).arg? "mappedBy" (.map .text)).arg? "optional" (.map .bool)) relation.fetch
  exact hfollows.wellFormed (by simpa using hname) (by decide)

/-- What an attribute is to its class is said with well-formed annotations. -/
theorem wellFormed_of_mem_mappingUses {mapping : Mapping} {uses : List AnnotationUse}
    (h : mappingUses defaults mapping = .ok uses) : ∀ u ∈ uses, u.WellFormed := by
  have hclosed : ∀ {name : String} {rest : List AnnotationUse}, isIdentifier name = true →
      (∀ u ∈ rest, u.WellFormed) → ∀ u ∈ use name :: rest, u.WellFormed := by
    intro name rest hname hrest u hu
    rcases List.mem_cons.mp hu with rfl | hu
    · exact wellFormed_use hname
    · exact hrest u hu
  have hrelation : ∀ {name : String}, isIdentifier name = true → ∀ relation, ∀ u ∈ [relationship name relation],
      u.WellFormed := by
    intro name hname relation u hu
    rw [List.mem_singleton.mp hu]
    exact wellFormed_relationship hname relation
  cases mapping with
  | id generation =>
    cases generation with
    | none =>
      cases h
      exact hclosed (by decide) (by simp)
    | some generation =>
      cases h
      refine hclosed (by decide) fun u hu => ?_
      rw [List.mem_singleton.mp hu]
      exact (follows_withConstant (follows_use "GeneratedValue") "strategy" (by decide)
        (by cases generation <;> decide)).wellFormed (by rw [name_withConstant]; decide) (by decide)
  | basic =>
    cases h
    cases defaults with
    | false => simp
    | true => exact hclosed (by decide) (by simp)
  | version | transient | embedded | embeddedId =>
    cases h
    exact hclosed (by decide) (by simp)
  | elementCollection fetch =>
    cases h
    intro u hu
    rw [List.mem_singleton.mp hu]
    exact (follows_fetching (follows_use "ElementCollection") fetch).wellFormed (by rw [name_fetching]; decide)
      (by decide)
  | oneToOne relation =>
    cases h
    exact hrelation (by decide) relation
  | manyToOne relation | oneToMany relation | manyToMany relation =>
    rw [mappingUses] at h
    split at h
    · cases h
    · cases h
      exact hrelation (by decide) relation

theorem wellFormed_columnUse (column : Column) : (columnUse defaults column).WellFormed := by
  have hfollows : (columnUse defaults column).Follows ["name", "nullable", "unique", "length"] :=
    ((((follows_use "Column").arg? "name" (.map .text)).arg? "nullable" (.ite (.bool _))).arg? "unique"
      (.ite (.bool _))).arg? "length" (.ite (.int _))
  exact hfollows.wellFormed (by rw [name_columnUse]; decide) (by decide)

theorem wellFormed_temporalUse (temporal : Temporal) : (temporalUse temporal).WellFormed :=
  wellFormed_withConstant (by decide) (by decide) (by cases temporal <;> decide)

theorem wellFormed_enumeratedUse (enumerated : Enumerated) : (enumeratedUse defaults enumerated).WellFormed := by
  rw [enumeratedUse]
  split
  · exact wellFormed_use (by decide)
  · exact wellFormed_withConstant (by decide) (by decide) (by cases enumerated <;> decide)

/-- A converter is stated where its class literal is written. -/
theorem wellFormed_convertUse (convert : Convert) : (convertUse defaults convert).WellFormed := by
  have hfollows : (convertUse defaults convert).Follows ["converter", "disableConversion", "attributeName"] := by
    rw [convertUse]
    cases Text.nonBlank? convert.converter with
    | none =>
      exact (((follows_use "Convert").arg? "converter" (by simp)).arg? "disableConversion" (.ite (.bool _))).arg?
        "attributeName" (.map .text)
    | some converter =>
      -- The converter is stated after all arguments; its literal is the first of them and fits only once it is stated.
      simp only [Option.map_some, Option.elim, naming_arg?]
      have hliteral : ((use "Convert").naming converter).Follows [] := (follows_use "Convert").naming converter
      exact ((hliteral.arg "converter" (.classLiteral (List.mem_append_right _ List.mem_cons_self))).arg?
        "disableConversion" (.ite (.bool _))).arg? "attributeName" (.map .text)
  exact hfollows.wellFormed (by rw [name_convertUse]; decide) (by decide)

/-- The persistence annotations of a class are well formed. -/
theorem wellFormed_of_mem_classUses {c : ClassModel} : ∀ u ∈ classUses c, u.WellFormed := by
  have htable : ∀ table, ((use "Table").arg "name" (.text table)).WellFormed := fun table =>
    ((follows_use "Table").arg "name" (.text table)).wellFormed (by rw [name_arg]; decide) (by decide)
  intro u hu
  rw [classUses] at hu
  cases hkind : c.kind with
  | entity =>
    rw [hkind] at hu
    rcases List.mem_cons.mp hu with rfl | hu
    · exact wellFormed_use (by decide)
    · cases htext : Text.nonBlank? c.table with
      | none => simp [htext] at hu
      | some table =>
        rw [htext] at hu
        rw [List.mem_singleton.mp hu]
        exact htable table
  | mappedSuperclass | embeddable | embeddedId =>
    rw [hkind] at hu
    rw [List.mem_singleton.mp hu]
    exact wellFormed_use (by decide)
  | idClass | bean =>
    rw [hkind] at hu
    cases hu

/-- The persistence annotations of an attribute are well formed. -/
theorem wellFormed_of_mem_attributeUses {kind : ClassKind} {a : Attribute} {uses : List AnnotationUse}
    (h : attributeUses defaults kind a = .ok uses) : ∀ u ∈ uses, u.WellFormed := by
  rw [attributeUses] at h
  split at h
  · cases h
    simp
  · obtain ⟨mapping, hmapping, h⟩ := bind_eq_ok_iff.mp h
    split at h
    · cases h
    · cases h
      intro u hu
      rw [columnUses] at hu
      simp only [List.mem_append, Option.mem_toList, Option.map_eq_some_iff] at hu
      rcases hu with (hu | ((⟨column, -, rfl⟩ | hu) | ⟨temporal, -, rfl⟩) | ⟨enumerated, -, rfl⟩) | ⟨convert, -, rfl⟩
      · exact wellFormed_of_mem_mappingUses hmapping u hu
      · exact wellFormed_columnUse column
      · split at hu
        · rw [List.mem_singleton.mp hu]
          exact wellFormed_use (by decide)
        · cases hu
      · exact wellFormed_temporalUse temporal
      · exact wellFormed_enumeratedUse enumerated
      · exact wellFormed_convertUse convert

end Persistence

/-! ## Annotations of binding -/

theorem follows_bindingUse (name : String) : (bindingUse name).Follows [] :=
  .plain bindingPackage name

theorem wellFormed_bindingUse {name : String} (hname : isIdentifier name = true) : (bindingUse name).WellFormed :=
  (follows_bindingUse name).wellFormed hname (by simp)

theorem Format.wellFormed_of_use? {name : String} (hname : isIdentifier name = true) {format : Option Format} :
    ∀ u ∈ use? name format, u.WellFormed := by
  intro u hu
  obtain ⟨format, -, rfl⟩ := Option.map_eq_some_iff.mp hu
  have hfollows : (((bindingUse name).arg? "value" ((Text.nonBlank? format.value).map .text)).arg? "locale"
      ((Text.nonBlank? format.locale).map .text)).Follows ["value", "locale"] :=
    ((follows_bindingUse name).arg? "value" (.map .text)).arg? "locale" (.map .text)
  exact hfollows.wellFormed (by rw [name_arg?, name_arg?]; exact hname) (by decide)

/-- A reference is stated where its class literal is written. -/
theorem TypeRef.wellFormed_of_use? {name : String} (hname : isIdentifier name = true) {ref : Option TypeRef} :
    ∀ u ∈ use? name ref, u.WellFormed := by
  intro u hu
  obtain ⟨ref, -, rfl⟩ := Option.map_eq_some_iff.mp hu
  have hfits : (Value.classLiteral ref.simpleName).Fits ((bindingUse name).naming ref.name) :=
    .classLiteral (List.mem_append_right _ List.mem_cons_self)
  exact .of_value rfl hname ⟨hfits.readable, hfits.named⟩

theorem BindingTypes.wellFormed_of_mem_uses {t : BindingTypes} : ∀ u ∈ t.uses, u.WellFormed := by
  intro u hu
  simp only [BindingTypes.uses, List.mem_append, Option.mem_toList] at hu
  rcases hu with (((hu | hu) | hu) | hu) | hu
  · exact Format.wellFormed_of_use? (by decide) u hu
  · exact Format.wellFormed_of_use? (by decide) u hu
  · exact TypeRef.wellFormed_of_use? (by decide) u hu
  · exact TypeRef.wellFormed_of_use? (by decide) u hu
  · exact TypeRef.wellFormed_of_use? (by decide) u hu

theorem AttributeBinding.wellFormed_of_propertyUse? {b : AttributeBinding} : ∀ u ∈ b.propertyUse?, u.WellFormed := by
  intro u hu
  rw [propertyUse?] at hu
  split at hu
  · cases hu
    exact .of_value rfl (by rw [name_value]; decide) (.text _)
  · cases hu
    exact (((follows_bindingUse "JsonbProperty").arg "value" (.text _)).arg "nillable" (.bool true)).wellFormed
      (by rw [name_arg, name_arg]; decide) (by decide)
  · cases hu
    exact ((follows_bindingUse "JsonbProperty").arg "nillable" (.bool true)).wellFormed (by decide) (by decide)
  · cases hu

/-- The binding annotations of an attribute are well formed. -/
theorem AttributeBinding.wellFormed_of_mem_uses {b : AttributeBinding} : ∀ u ∈ b.uses, u.WellFormed := by
  intro u hu
  rw [AttributeBinding.uses] at hu
  split at hu
  · rw [List.mem_singleton.mp hu]
    exact wellFormed_bindingUse (by decide)
  · rcases List.mem_append.mp hu with hu | hu
    · exact wellFormed_of_propertyUse? u (Option.mem_toList.mp hu)
    · exact BindingTypes.wellFormed_of_mem_uses u hu

/-- The binding annotations of a class are well formed. -/
theorem ClassBinding.wellFormed_of_mem_uses {b : ClassBinding} {visible : List String} {uses : List AnnotationUse}
    (h : b.uses visible = .ok uses) : ∀ u ∈ uses, u.WellFormed := by
  rw [ClassBinding.uses] at h
  split at h
  · cases h
  · cases h
    intro u hu
    simp only [List.mem_append, Option.mem_toList] at hu
    rcases hu with ((hu | hu) | hu) | hu
    · split at hu
      · rw [List.mem_singleton.mp hu]
        exact wellFormed_bindingUse (by decide)
      · cases hu
    · split at hu
      · cases hu
      · rw [List.mem_singleton.mp hu]
        exact .of_value rfl (by rw [name_value]; decide) (.texts b.propertyOrder)
    · exact BindingTypes.wellFormed_of_mem_uses u hu
    · exact TypeRef.wellFormed_of_use? (by decide) u hu

/-! ## Annotations of validation -/

theorem follows_validationUse (name : String) : (validationUse name).Follows [] :=
  .plain validationPackage name

/-- The annotation of a rule has the name of the rule, and its keys are identifiers that differ from each other and from
that of the message. -/
theorem Rule.exists_follows {defaults : Bool} {rule : Rule} {use : AnnotationUse} (h : rule.use defaults = .ok use) :
    ∃ keys, use.Follows keys ∧ (keys ++ ["message"]).Nodup ∧ ∀ key ∈ keys ++ ["message"], isIdentifier key = true := by
  cases rule with
  | marker m =>
    cases h
    exact ⟨[], follows_validationUse _, by decide, by decide⟩
  | min value | max value =>
    cases h
    exact ⟨["value"], (follows_validationUse _).arg? "value" (.map fun n => .int (Int64.toInt n)), by decide, by decide⟩
  | decimalMin value inclusive | decimalMax value inclusive =>
    rw [decimalUse_eq_ok h]
    exact ⟨["value", "inclusive"], ((follows_validationUse _).arg? "value" (.map .text)).arg? "inclusive"
      (.ite (.bool _)), by decide, by decide⟩
  | size low high =>
    rw [use_size_eq_ok h]
    exact ⟨["min", "max"], ((follows_validationUse "Size").arg? "min" (.ite (.int _))).arg? "max" (.ite (.int _)),
      by decide, by decide⟩
  | digits integer fraction =>
    obtain ⟨i, f, rfl, rfl, rfl⟩ := use_digits_eq_ok h
    exact ⟨["integer", "fraction"], ((follows_validationUse "Digits").arg "integer" (.int _)).arg "fraction" (.int _),
      by decide, by decide⟩
  | pattern regexp flags =>
    cases h
    exact ⟨["regexp", "flags"], ((follows_validationUse "Pattern").arg? "regexp" (.map .text)).arg? "flags"
      (.ite (.flags (by simp) flags)), by decide, by decide⟩
  | email regexp =>
    rw [use_email] at h
    cases h
    exact ⟨["regexp"], (follows_validationUse "Email").arg? "regexp" (.map .text), by decide, by decide⟩

/-- The annotation of a constraint is well formed. -/
theorem Constraint.wellFormed_of_use? {defaults : Bool} {c : Constraint} {use : AnnotationUse}
    (h : c.use? defaults = .ok (some use)) : use.WellFormed := by
  rw [use?] at h
  split at h
  · cases h
  · obtain ⟨bare, hbare, h⟩ := bind_eq_ok_iff.mp h
    cases h
    obtain ⟨keys, hfollows, hnodup, hidentifiers⟩ := Rule.exists_follows hbare
    refine (hfollows.arg? "message" (.map .text)).wellFormed ?_ ⟨hnodup, hidentifiers⟩
    rw [name_arg?, (Rule.statedBy_of_use_eq_ok hbare).name_eq]
    exact c.rule.isIdentifier_annotationName

/-- The annotations of constraints are well formed. -/
theorem Constraint.wellFormed_of_mem_uses {defaults : Bool} {constraints : List Constraint} {uses : List AnnotationUse}
    (h : Constraint.uses defaults constraints = .ok uses) : ∀ u ∈ uses, u.WellFormed := by
  induction constraints generalizing uses with
  | nil =>
    cases h
    simp
  | cons c rest ih =>
    obtain ⟨first, hfirst, h⟩ := bind_eq_ok_iff.mp h
    obtain ⟨others, hothers, h⟩ := bind_eq_ok_iff.mp h
    cases h
    intro u hu
    rcases List.mem_append.mp hu with hu | hu
    · rw [Option.mem_toList] at hu
      rw [hu] at hfirst
      exact wellFormed_of_use? hfirst
    · exact ih hothers u hu

/-! ## Annotations that are closed -/

section Closed

variable {defaults : Bool} {uses : List AnnotationUse}

/-- The persistence annotations of a class are closed. -/
theorem Persistence.closed_of_mem_classUses {c : ClassModel} : ∀ u ∈ classUses c, u.Closed :=
  fun u hu => (wellFormed_of_mem_classUses u hu).closed

/-- The persistence annotations of an attribute are closed. -/
theorem Persistence.closed_of_mem_attributeUses {kind : ClassKind} {a : Attribute}
    (h : attributeUses defaults kind a = .ok uses) : ∀ u ∈ uses, u.Closed :=
  fun u hu => (wellFormed_of_mem_attributeUses h u hu).closed

/-- The binding annotations of an attribute are closed. -/
theorem AttributeBinding.closed_of_mem_uses {b : AttributeBinding} : ∀ u ∈ b.uses, u.Closed :=
  fun u hu => (wellFormed_of_mem_uses u hu).closed

/-- The binding annotations of a class are closed. -/
theorem ClassBinding.closed_of_mem_uses {b : ClassBinding} {visible : List String} (h : b.uses visible = .ok uses) :
    ∀ u ∈ uses, u.Closed :=
  fun u hu => (wellFormed_of_mem_uses h u hu).closed

/-- The annotations of constraints are closed. -/
theorem Constraint.closed_of_mem_uses {constraints : List Constraint}
    (h : Constraint.uses defaults constraints = .ok uses) : ∀ u ∈ uses, u.Closed :=
  fun u hu => (wellFormed_of_mem_uses h u hu).closed

end Closed

end EntityForge
