import EntityForge.Proofs.ConstrainedTypes
import EntityForge.Proofs.ImportClosure

/-!
# Methods of a class

The methods of a class one by one, each with its name and its parameters, and the source laid out by them. A class must
not declare two methods with one name and the same types of parameters. Getters and setters are named after capitalized
attributes, and assembly compares the attributes only before they are capitalized.

Main statement: `methods_distinct_iff`, that the methods differ exactly when no two attributes share the name of a getter.
-/

namespace EntityForge

open Java Layout

/-! ## Methods -/

/-- A method as it is laid out in a class. -/
structure JavaMethod where
  /-- The lines above its heading. -/
  above : List String
  result : String
  name : String
  parameters : List Parameter
  /-- What stands between the parameters and the opening brace. -/
  clause : String
  body : List String
  /-- The lines behind its closing brace. -/
  behind : List String

namespace JavaMethod

/-- The parameters as they are written. -/
def parameterList (m : JavaMethod) : String :=
  "(" ++ ", ".intercalate (m.parameters.map fun p => p.type ++ " " ++ p.name) ++ ")"

/-- The line that opens the method. -/
def heading (m : JavaMethod) : String :=
  "public " ++ m.result ++ " " ++ m.name ++ m.parameterList ++ m.clause ++ " \x7b"

/-- The lines of the method. -/
def lines (m : JavaMethod) : List String :=
  m.above ++ [indent 1 m.heading] ++ m.body ++ [indent 1 "\x7d"] ++ m.behind

/-- The name of the method and the types of its parameters; `typeOf` says what type a text writes. -/
def signature {τ : Type} (typeOf : String → τ) (m : JavaMethod) : String × List τ :=
  (m.name, m.parameters.map fun p => typeOf p.type)

theorem isEmpty_lines (m : JavaMethod) : m.lines.isEmpty = false := by
  simp [lines]

/-- A method that overrides one of all objects. -/
def overriding (result name : String) (parameters : List Parameter) (body : List Statement) : JavaMethod where
  above := [indent 1 "@Override"]
  result := result
  name := name
  parameters := parameters
  clause := ""
  body := block 2 (bodyText body)
  behind := []

/-- A method that adds or removes a listener. -/
def listening (verb listener support : String) : JavaMethod where
  above := []
  result := "void"
  name := verb ++ listener
  parameters := [{ name := "listener", type := listener }]
  clause := ""
  body := [indent 2 (support ++ "." ++ verb ++ listener ++ "(listener);")]
  behind := []

theorem lines_listening (verb listener support : String) :
    (listening verb listener support).lines = JavaClass.listenerSection verb listener support := by
  have hvoid : "public void " = "public " ++ ("void" ++ " ") := by decide
  rw [JavaClass.listenerSection, hvoid]
  simp [lines, heading, parameterList, listening, String.append_assoc]

end JavaMethod

namespace JavaField

/-- The getter. -/
def getter (f : JavaField) : JavaMethod where
  above := blocks 1 (f.snippets.textsAt .getterJavadoc) ++ blocks 1 (f.snippets.textsAt .beforeGetter)
    ++ blocks 1 (f.annotations.textsAt .getter)
  result := f.type
  name := f.getterName
  parameters := []
  clause := ""
  body := blocks 2 (f.snippets.textsAt .preGetter) ++ blocks 2 (f.snippets.textsAt .postGetter)
    ++ [indent 2 ("return this." ++ f.name ++ ";")]
  behind := blocks 1 (f.snippets.textsAt .afterGetter)

/-- The setter. -/
def setter (f : JavaField) : JavaMethod where
  above := blocks 1 (f.snippets.textsAt .setterJavadoc) ++ blocks 1 (f.snippets.textsAt .beforeSetter)
    ++ blocks 1 (f.annotations.textsAt .setter)
  result := "void"
  name := f.setterName
  parameters := [{ name := f.name, type := f.type }]
  clause := f.throwsClause
  body := blocks 2 (f.snippets.textsAt .preSetter) ++ f.setterStatements.map (indent 2)
    ++ blocks 2 (f.snippets.textsAt .postSetter)
  behind := blocks 1 (f.snippets.textsAt .afterSetter)

theorem lines_getter (f : JavaField) : f.getter.lines = f.getterLines := by
  simp [JavaMethod.lines, JavaMethod.heading, JavaMethod.parameterList, getter, getterLines, String.append_assoc]

theorem lines_setter (f : JavaField) : f.setter.lines = f.setterLines := by
  simp [JavaMethod.lines, JavaMethod.heading, JavaMethod.parameterList, setter, setterLines, throwsClause,
    String.append_assoc]

end JavaField

namespace JavaClass

/-- The methods that read and change the fields. -/
def accessors (c : JavaClass) : List JavaMethod :=
  c.fields.flatMap fun f => [f.getter, f.setter]

/-- The other methods: those that override methods of all objects, and those for listeners. -/
def otherMethods (c : JavaClass) : List JavaMethod :=
  (c.equalsMethod.map (.overriding "boolean" "equals" [{ name := "obj", type := "Object" }])).toList
    ++ (c.hashCodeMethod.map (.overriding "int" "hashCode" [])).toList
    ++ (c.toStringMethod.map (.overriding "String" "toString" [])).toList
    ++ (if c.propertyChangeSupport then
      [.listening "add" "PropertyChangeListener" "propertyChangeSupport",
        .listening "remove" "PropertyChangeListener" "propertyChangeSupport"] else [])
    ++ (if c.vetoableChangeSupport then
      [.listening "add" "VetoableChangeListener" "vetoableChangeSupport",
        .listening "remove" "VetoableChangeListener" "vetoableChangeSupport"] else [])

/-- All methods of the class, in order. -/
def methods (c : JavaClass) : List JavaMethod :=
  c.accessors ++ c.otherMethods

/-- The sections in front of the methods: fields, constructors and code written by hand. -/
def sectionsBefore (c : JavaClass) : List (List String) :=
  [c.fieldSection] ++ c.constructors.map (fun constructor => block 1 (constructor.signature c.name).text)
    ++ [blocks 1 (c.snippets.textsAt .beforeMethod)]

theorem map_lines_accessors (c : JavaClass) :
    c.accessors.map (·.lines) = c.fields.flatMap fun f => [f.getterLines, f.setterLines] := by
  simp [accessors, List.map_flatMap, JavaField.lines_getter, JavaField.lines_setter]

/-- A method without a body has no section, and no listener is added where no change is reported. -/
theorem map_lines_otherMethods (c : JavaClass) :
    c.otherMethods.map (·.lines)
      = ([methodSection "public boolean equals(Object obj)" c.equalsMethod,
        methodSection "public int hashCode()" c.hashCodeMethod,
        methodSection "public String toString()" c.toStringMethod] ++ c.listenerSections).filter (!·.isEmpty) := by
  have hoverriding : ∀ {result name signature : String} {parameters : List Parameter},
      "public " ++ result ++ " " ++ name
        ++ ("(" ++ ", ".intercalate (parameters.map fun p => p.type ++ " " ++ p.name) ++ ")") = signature →
      ∀ body, ((body.map (JavaMethod.overriding result name parameters)).toList.map (·.lines))
        = [methodSection signature body].filter (!·.isEmpty) := by
    rintro result name _ parameters rfl body
    cases body with
    | none => rfl
    | some body =>
      simp [methodSection, JavaMethod.lines, JavaMethod.heading, JavaMethod.parameterList, JavaMethod.overriding,
        String.append_assoc]
  have hlistening : ∀ (reports : Bool) (listener support : String),
      (if reports then [JavaMethod.listening "add" listener support, .listening "remove" listener support] else []).map
          (·.lines)
        = (if reports then [listenerSection "add" listener support, listenerSection "remove" listener support]
          else []).filter (!·.isEmpty) := by
    intro reports listener support
    cases reports with
    | false => rfl
    | true =>
      rw [if_pos rfl, if_pos rfl, List.map_cons, List.map_singleton, JavaMethod.lines_listening,
        JavaMethod.lines_listening]
      rfl
  simp only [otherMethods, listenerSections, List.map_append]
  rw [hoverriding (by decide : _ = "public boolean equals(Object obj)"),
    hoverriding (by decide : _ = "public int hashCode()"), hoverriding (by decide : _ = "public String toString()"),
    hlistening, hlistening]
  simp only [← List.filter_append, List.cons_append, List.nil_append]

/-- The source is laid out by the methods: each is a section, in order, with nothing between them. -/
theorem lines_eq_methods (c : JavaClass) :
    c.lines = c.preambleLines
      ++ joinSections (c.sectionsBefore.filter (!·.isEmpty) ++ c.methods.map (·.lines)
        ++ [blocks 1 (c.snippets.textsAt .afterMethod)].filter (!·.isEmpty))
      ++ ["\x7d"] ++ blocks 0 (c.snippets.textsAt .afterClass) := by
  have haccessors : (c.fields.flatMap fun f => [f.getterLines, f.setterLines]).filter (!·.isEmpty)
      = c.accessors.map (·.lines) := by
    rw [← map_lines_accessors, List.filter_eq_self]
    intro section_ hsection
    obtain ⟨m, -, rfl⟩ := List.mem_map.mp hsection
    rw [m.isEmpty_lines]
    rfl
  have hsections : c.sections = c.sectionsBefore ++ (c.fields.flatMap fun f => [f.getterLines, f.setterLines])
      ++ ([methodSection "public boolean equals(Object obj)" c.equalsMethod,
        methodSection "public int hashCode()" c.hashCodeMethod,
        methodSection "public String toString()" c.toStringMethod] ++ c.listenerSections)
      ++ [blocks 1 (c.snippets.textsAt .afterMethod)] := by
    simp only [sections, sectionsBefore, List.append_assoc]
  rw [lines, hsections, List.filter_append, List.filter_append, List.filter_append, haccessors,
    ← map_lines_otherMethods, methods, List.map_append]
  simp only [List.append_assoc]

end JavaClass

/-! ## Capitalized names -/

/-- Whether a text begins with a lower-case letter of ASCII. -/
def Text.beginsLower (s : String) : Bool :=
  s.toList.head?.any Char.isLower

/-- The upper-case form of such a letter is one letter, from which it comes back. -/
theorem Text.upperCase_of_isLower {c : Char} (h : c.isLower = true) :
    upperCase c = [c.toUpper] ∧ c.toUpper.toLower = c := by
  obtain ⟨hlow, hhigh⟩ := (Bool.and_eq_true _ _).mp h
  have hlow : c.val ≥ 'a'.val := of_decide_eq_true hlow
  have hhigh : c.val ≤ 'z'.val := of_decide_eq_true hhigh
  have hrange : 97 ≤ c.toNat ∧ c.toNat ≤ 122 := ⟨hlow, hhigh⟩
  have hall : ∀ n : Fin 128, (Char.ofNat n).isLower = true → (Char.ofNat n).toUpper.toLower = Char.ofNat n := by
    decide
  have hback := hall ⟨c.toNat, by omega⟩
  simp only [Char.ofNat_toNat] at hback
  exact ⟨if_pos (by omega), hback h⟩

/-- Texts that begin with such a letter are told apart when they are capitalized. -/
theorem Text.capitalize_inj {s t : String} (hs : beginsLower s = true) (ht : beginsLower t = true)
    (h : capitalize s = capitalize t) : s = t := by
  have hcapital : ∀ {s : String}, beginsLower s = true →
      ∃ c rest, s = String.ofList (c :: rest) ∧ c.toUpper.toLower = c
        ∧ capitalize s = String.ofList (c.toUpper :: rest) := by
    intro s hs
    unfold beginsLower at hs
    unfold capitalize
    cases hchars : s.toList with
    | nil => simp [hchars] at hs
    | cons c rest =>
      simp only [hchars, List.head?_cons, Option.any_some] at hs
      obtain ⟨hupper, hback⟩ := upperCase_of_isLower hs
      refine ⟨c, rest, ?_, hback, ?_⟩
      · rw [← hchars, String.ofList_toList]
      · show String.ofList (upperCase c ++ rest) = String.ofList (c.toUpper :: rest)
        rw [hupper, List.singleton_append]
  obtain ⟨c, rest, rfl, hc, hcaps⟩ := hcapital hs
  obtain ⟨d, rest', rfl, hd, hcapt⟩ := hcapital ht
  rw [hcaps, hcapt, String.ofList_inj, List.cons.injEq] at h
  rw [← hc, ← hd, h.1, h.2]

/-! ## Names of methods -/

/-- Whether a name begins as those of getters and setters do. -/
def beginsAsAccessor (name : String) : Bool :=
  ['i', 'g', 's'].any fun c => name.toList.head? == some c

namespace JavaField

variable {f g : JavaField}

theorem beginsAsAccessor_getterName (f : JavaField) : beginsAsAccessor f.getterName = true := by
  rw [beginsAsAccessor, getterName, String.toList_append]
  split <;> rfl

theorem beginsAsAccessor_setterName (f : JavaField) : beginsAsAccessor f.setterName = true := by
  rw [beginsAsAccessor, setterName, String.toList_append]
  rfl

/-- Whether the field is a truth value, whose getter asks a question. -/
def IsBoolean (f : JavaField) : Prop :=
  f.shape = .primitive .boolean

/-- Getters have one name when the capitalized names and the prefixes are the same. -/
theorem getterName_eq_iff :
    f.getterName = g.getterName
      ↔ Text.capitalize f.name = Text.capitalize g.name ∧ (f.IsBoolean ↔ g.IsBoolean) := by
  have hapart : ∀ a b : String, "is" ++ a ≠ "get" ++ b := by
    intro a b h
    have hhead := congrArg (·.toList.head?) h
    simp at hhead
  unfold getterName IsBoolean
  by_cases hf : f.shape = .primitive .boolean
  · by_cases hg : g.shape = .primitive .boolean
    · simp [hf, hg]
    · simp [hf, hg, hapart]
  · by_cases hg : g.shape = .primitive .boolean
    · simp [hf, hg, (hapart _ _).symm]
    · simp [hf, hg]

theorem setterName_eq_iff : f.setterName = g.setterName ↔ Text.capitalize f.name = Text.capitalize g.name := by
  rw [setterName, setterName]
  simp

end JavaField

namespace JavaClass

/-- The names of the methods that override others, and of those for listeners. -/
def otherNames : List String :=
  ["equals"] ++ ["hashCode"] ++ ["toString"]
    ++ ["add" ++ "PropertyChangeListener", "remove" ++ "PropertyChangeListener"]
    ++ ["add" ++ "VetoableChangeListener", "remove" ++ "VetoableChangeListener"]

theorem names_otherMethods_sublist (c : JavaClass) : (c.otherMethods.map (·.name)).Sublist otherNames := by
  have hoverriding : ∀ {result name : String} {parameters : List Parameter} (body : Option (List Statement)),
      ((body.map (JavaMethod.overriding result name parameters)).toList.map (·.name)).Sublist [name] := by
    intro result name parameters body
    cases body with
    | none => exact List.nil_sublist _
    | some body => exact List.Sublist.refl _
  have hlistening : ∀ (reports : Bool) (listener support : String),
      ((if reports then [JavaMethod.listening "add" listener support, .listening "remove" listener support] else []).map
        (·.name)).Sublist ["add" ++ listener, "remove" ++ listener] := by
    intro reports listener support
    cases reports with
    | false => exact List.nil_sublist _
    | true => exact List.Sublist.refl _
  simp only [otherMethods, List.map_append]
  exact ((((hoverriding _).append (hoverriding _)).append (hoverriding _)).append (hlistening _ _ _)).append
    (hlistening _ _ _)

theorem nodup_names_otherMethods (c : JavaClass) : (c.otherMethods.map (·.name)).Nodup := by
  have hall : otherNames.Nodup := by decide
  exact hall.sublist c.names_otherMethods_sublist

/-- None of the other methods is named like a getter or a setter. -/
theorem not_beginsAsAccessor_of_mem_otherMethods {c : JavaClass} {m : JavaMethod} (hm : m ∈ c.otherMethods) :
    beginsAsAccessor m.name = false := by
  have hall : ∀ name ∈ otherNames, beginsAsAccessor name = false := by decide
  exact hall m.name (c.names_otherMethods_sublist.subset (List.mem_map_of_mem hm))

theorem beginsAsAccessor_of_mem_accessors {c : JavaClass} {m : JavaMethod} (hm : m ∈ c.accessors) :
    beginsAsAccessor m.name = true := by
  obtain ⟨f, -, hm⟩ := List.mem_flatMap.mp hm
  rcases List.mem_pair.mp hm with rfl | rfl
  · exact f.beginsAsAccessor_getterName
  · exact f.beginsAsAccessor_setterName

end JavaClass

/-! ## Methods that differ -/

/-- Types that are the same are both boolean or both not. -/
def TellsBoolean {τ : Type} (typeOf : String → τ) : Prop :=
  ∀ s t, typeOf s = typeOf t → (Shape.ofType s = .primitive .boolean ↔ Shape.ofType t = .primitive .boolean)

variable {τ : Type} {typeOf : String → τ}

/-- The accessors of two fields differ when their getters do: setters of one name for one type come with getters of one
name. -/
theorem JavaField.disjoint_accessors_iff (htypes : TellsBoolean typeOf) (f g : JavaField) :
    List.Disjoint [f.getter.signature typeOf, f.setter.signature typeOf]
        [g.getter.signature typeOf, g.setter.signature typeOf]
      ↔ f.getterName ≠ g.getterName := by
  have hgetter : ∀ k : JavaField, k.getter.signature typeOf = (k.getterName, []) := fun _ => rfl
  have hsetter : ∀ k : JavaField, k.setter.signature typeOf = (k.setterName, [typeOf k.type]) := fun _ => rfl
  have hsetters : f.setter.signature typeOf = g.setter.signature typeOf → f.getterName = g.getterName := by
    intro h
    simp only [hsetter, Prod.mk.injEq, List.cons.injEq, and_true] at h
    exact getterName_eq_iff.mpr ⟨setterName_eq_iff.mp h.1, htypes _ _ h.2⟩
  constructor
  · intro hdisjoint hname
    have hsame : f.getter.signature typeOf = g.getter.signature typeOf := by rw [hgetter, hgetter, hname]
    refine hdisjoint List.mem_cons_self ?_
    rw [hsame]
    exact List.mem_cons_self
  · intro hname x hf hg
    rcases List.mem_pair.mp hf with rfl | rfl
    · rcases List.mem_pair.mp hg with h | h
      · exact hname (congrArg Prod.fst h)
      · simp [hgetter, hsetter] at h
    · rcases List.mem_pair.mp hg with h | h
      · simp [hgetter, hsetter] at h
      · exact hname (hsetters h)

namespace JavaClass

/-- The methods of a class differ when its getters do. -/
theorem nodup_signatures_iff (htypes : TellsBoolean typeOf) (c : JavaClass) :
    (c.methods.map (JavaMethod.signature typeOf)).Nodup ↔ (c.fields.map (·.getterName)).Nodup := by
  have hothers : (c.otherMethods.map (JavaMethod.signature typeOf)).Nodup := by
    refine List.Nodup.of_map Prod.fst ?_
    rw [List.map_map]
    exact c.nodup_names_otherMethods
  have hapart : List.Disjoint (c.accessors.map (JavaMethod.signature typeOf))
      (c.otherMethods.map (JavaMethod.signature typeOf)) := by
    intro signature haccessor hother
    obtain ⟨m, hm, rfl⟩ := List.mem_map.mp haccessor
    obtain ⟨k, hk, hsame⟩ := List.mem_map.mp hother
    have hname : k.name = m.name := congrArg Prod.fst hsame
    have hbegins := beginsAsAccessor_of_mem_accessors hm
    rw [← hname, not_beginsAsAccessor_of_mem_otherMethods hk] at hbegins
    exact absurd hbegins (by decide)
  have hpair : ∀ f : JavaField, [f.getter.signature typeOf, f.setter.signature typeOf].Nodup := by
    intro f
    simp [JavaMethod.signature, JavaField.getter, JavaField.setter]
  have haccessors : (c.accessors.map (JavaMethod.signature typeOf)).Nodup ↔ (c.fields.map (·.getterName)).Nodup := by
    have hgetters : (c.fields.map (·.getterName)).Nodup ↔ c.fields.Pairwise fun f g => f.getterName ≠ g.getterName :=
      List.pairwise_map
    rw [accessors, List.map_flatMap, List.nodup_flatMap, hgetters]
    refine (and_iff_right fun f _ => hpair f).trans ?_
    exact List.Pairwise.iff fun f g => f.disjoint_accessors_iff htypes g
  rw [methods, List.map_append, List.nodup_append', haccessors]
  exact ⟨fun h => h.1, fun h => ⟨h, hothers, hapart⟩⟩

end JavaClass

/-! ## Methods of assembled classes -/

/-- Two attributes have getters of one name: their names are the same when capitalized, and both or neither is a truth
value. -/
def Attribute.SharesGetter (a b : Attribute) : Prop :=
  Text.capitalize a.name = Text.capitalize b.name
    ∧ (Shape.ofType a.dataType = .primitive .boolean ↔ Shape.ofType b.dataType = .primitive .boolean)

instance : DecidableRel Attribute.SharesGetter := fun a b =>
  inferInstanceAs (Decidable (Text.capitalize a.name = Text.capitalize b.name
    ∧ (Shape.ofType a.dataType = .primitive .boolean ↔ Shape.ofType b.dataType = .primitive .boolean)))

section Assembled

variable {σ : Type} [PrimeSource σ] {model : Metamodel} {options : GenerationOptions} {c : ClassModel}
  {primes primes' : σ} {artifact : JavaClass}

theorem FieldsFit.nodup_getterNames_iff (h : FieldsFit options c artifact) :
    (artifact.fields.map (·.getterName)).Nodup ↔ c.attributes.Pairwise fun a b => ¬a.SharesGetter b := by
  have hsame : artifact.fields.map (fun f => (f.name, f.type)) = c.attributes.map fun a => (a.name, a.dataType) := by
    rw [← List.forall₂_eq_eq_eq, List.forall₂_map_left_iff, List.forall₂_map_right_iff]
    refine h.fields.flip.imp fun f a hfield => ?_
    obtain ⟨hname, htype, -⟩ := JavaField.eq_of_ofAttribute_eq_ok hfield.1
    rw [hname, htype]
  -- Both sides say of pairs of a name and a type that no two share a getter.
  have hfields : (artifact.fields.map (·.getterName)).Nodup
      ↔ (artifact.fields.map fun f => (f.name, f.type)).Pairwise fun p q =>
        ¬(Text.capitalize p.1 = Text.capitalize q.1
          ∧ (Shape.ofType p.2 = .primitive .boolean ↔ Shape.ofType q.2 = .primitive .boolean)) := by
    rw [List.pairwise_map, List.Nodup, List.pairwise_map]
    exact List.Pairwise.iff fun f g => not_congr JavaField.getterName_eq_iff
  rw [hfields, hsame, List.pairwise_map]
  rfl

/-- **No duplicate methods.** The source of an assembled class is laid out by its methods, with what is written by hand
around them: getters and setters, the methods that override those of all objects, and those for listeners. Whatever texts
are taken for one type, as long as `boolean` is kept apart, no two methods have one name and the same types of parameters
exactly when no two attributes share a getter, that is, when no two names are the same once capitalized, unless one is a
truth value and the other is not. All is well when every name begins with a lower-case letter of ASCII. -/
theorem methods_distinct_iff (h : assemble model options c primes = (.ok artifact, primes'))
    (htypes : TellsBoolean typeOf) :
    artifact.lines = artifact.preambleLines
        ++ joinSections (artifact.sectionsBefore.filter (!·.isEmpty) ++ artifact.methods.map (·.lines)
          ++ [blocks 1 (artifact.snippets.textsAt .afterMethod)].filter (!·.isEmpty))
        ++ ["\x7d"] ++ blocks 0 (artifact.snippets.textsAt .afterClass)
      ∧ ((artifact.methods.map (JavaMethod.signature typeOf)).Nodup
        ↔ c.attributes.Pairwise fun a b => ¬a.SharesGetter b)
      ∧ ((∀ a ∈ c.attributes, Text.beginsLower a.name = true) →
        (artifact.methods.map (JavaMethod.signature typeOf)).Nodup) := by
  have hfit := fieldsFit_of_assemble_eq_ok h
  have hiff := (artifact.nodup_signatures_iff htypes).trans hfit.nodup_getterNames_iff
  refine ⟨artifact.lines_eq_methods, hiff, fun hlower => hiff.mpr ?_⟩
  obtain ⟨parts, -⟩ := exists_parts_of_assemble_eq_ok h
  have hnames : c.attributes.Pairwise fun a b => a.name ≠ b.name :=
    List.pairwise_map.mp (nodup_of_attributeFault?_eq_none parts.attributes_eq).1
  refine hnames.imp_of_mem fun {a b} ha hb hne hshares => ?_
  exact hne (Text.capitalize_inj (hlower a ha) (hlower b hb) hshares.1)

end Assembled

/-- A person with these attributes. -/
def personWith (attributes : List Attribute) : ClassModel :=
  { ClassModel.empty "Person" .bean with attributes }

/-- A flag and a text whose names are the same once capitalized have getters with different prefixes, and setters for
different types. -/
theorem methods_distinct_of_flag :
    ∃ (artifact : JavaClass) (primes : PrimeSupply),
      assemble (Metamodel.empty "shop") .standard
          (personWith [.plain "name" "String", .plain "active" "boolean", .plain "Active" "String"])
          (PrimeSupply.fixed .standard) = (.ok artifact, primes)
        ∧ artifact.methods.map (JavaMethod.signature id)
          = [("getName", []), ("setName", ["String"]), ("isActive", []), ("setActive", ["boolean"]), ("getActive", []),
            ("setActive", ["String"])]
        ∧ (artifact.methods.map (JavaMethod.signature id)).Nodup := by
  obtain ⟨artifact, primes, hassemble, hsummary⟩ :=
    exists_ok_of_summary
      (assemble (Metamodel.empty "shop") .standard
        (personWith [.plain "name" "String", .plain "active" "boolean", .plain "Active" "String"])
        (PrimeSupply.fixed .standard))
      (fun artifact => artifact.methods.map (JavaMethod.signature id))
      (b := [("getName", []), ("setName", ["String"]), ("isActive", []), ("setActive", ["boolean"]), ("getActive", []),
        ("setActive", ["String"])])
      (by decide +kernel)
  have htypes : TellsBoolean (id : String → String) := by
    rintro s t rfl
    exact Iff.rfl
  obtain ⟨-, hiff, -⟩ := methods_distinct_iff hassemble htypes
  exact ⟨artifact, primes, hassemble, hsummary, hiff.mpr (by decide +kernel)⟩

/-- Two texts whose names are the same once capitalized have their getters and setters twice, and the class is assembled
nevertheless. -/
theorem methods_repeat_getName :
    ∃ (artifact : JavaClass) (primes : PrimeSupply),
      assemble (Metamodel.empty "shop") .standard (personWith [.plain "name" "String", .plain "Name" "String"])
          (PrimeSupply.fixed .standard) = (.ok artifact, primes)
        ∧ artifact.methods.map (JavaMethod.signature id)
          = [("getName", []), ("setName", ["String"]), ("getName", []), ("setName", ["String"])]
        ∧ artifact.lines.count "    public String getName() \x7b" = 2
        ∧ ¬(artifact.methods.map (JavaMethod.signature id)).Nodup := by
  obtain ⟨artifact, primes, hassemble, hsummary⟩ :=
    exists_ok_of_summary
      (assemble (Metamodel.empty "shop") .standard (personWith [.plain "name" "String", .plain "Name" "String"])
        (PrimeSupply.fixed .standard))
      (fun artifact =>
        (artifact.methods.map (JavaMethod.signature id), artifact.lines.count "    public String getName() \x7b"))
      (b := ([("getName", []), ("setName", ["String"]), ("getName", []), ("setName", ["String"])], 2))
      (by decide +kernel)
  rw [Prod.mk.injEq] at hsummary
  obtain ⟨hmethods, hcount⟩ := hsummary
  refine ⟨artifact, primes, hassemble, hmethods, hcount, ?_⟩
  rw [hmethods]
  decide

end EntityForge
