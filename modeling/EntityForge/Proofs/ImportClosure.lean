import EntityForge.Proofs.NamedTypes
import EntityForge.Proofs.Rendering

/-!
# Imports of a class

The imports of a source are one group of lines, in ascending order and each once. They are the imports of all types that
the class names and that lie in another package, and the imports written by hand. The types that it names are those that
its annotations need, its interfaces and its superclass, and the types in the code that reports changes.

Main statement: `imports_are_closed`.
-/

namespace EntityForge

open Java Layout

/-! ## Code that reports changes -/

/-- What the signature of the setter says that it throws. -/
def JavaField.throwsClause (f : JavaField) : String :=
  if f.vetoableChangeSupport then " throws PropertyVetoException" else ""

/-- The line that opens the setter. -/
def JavaField.setterSignature (f : JavaField) : String :=
  indent 1 ("public void " ++ f.setterName ++ "(" ++ f.type ++ " " ++ f.name ++ ")" ++ f.throwsClause ++ " \x7b")

theorem JavaField.setterSignature_mem (f : JavaField) : f.setterSignature ∈ f.setterLines := by
  simp [setterLines, setterSignature, throwsClause]

/-- The words that begin with a capital letter; words are the longest runs of characters of identifiers. -/
def typeWords (text : String) : List String :=
  ((text.toList.splitOnP fun c => !isIdentifierPart c).filter fun word => word.head?.any Char.isUpper).map String.ofList

namespace JavaClass

variable {c : JavaClass} {type : String}

/-- The code that reports changes: fields and methods for listeners, and what setters throw. The other types in setters
are those of fields. -/
def changeCode (c : JavaClass) : List String :=
  c.changeFieldLines ++ c.listenerSections.flatten ++ c.fields.map (·.throwsClause)

/-- The lines of a section are lines of the class. -/
theorem mem_lines_of_section {line : String} {part : List String} (hline : line ∈ part) (hpart : part ∈ c.sections) :
    line ∈ c.lines := by
  have hmem := (inOrder_joinSections_filter c.sections).mem hpart hline
  simp [lines, hmem]

/-- The code that reports changes is part of the source: each of its lines, and what setters throw in the lines that open
them. -/
theorem changeCode_rendered :
    (∀ line ∈ c.changeFieldLines ++ c.listenerSections.flatten, line ∈ c.lines)
      ∧ ∀ f ∈ c.fields, f.setterSignature ∈ c.lines := by
  constructor
  · intro line hline
    rcases List.mem_append.mp hline with hline | hline
    · have hsection : line ∈ c.fieldSection := by simp [fieldSection, hline]
      exact mem_lines_of_section hsection (by simp [sections])
    · obtain ⟨part, hpart, hline⟩ := List.mem_flatten.mp hline
      exact mem_lines_of_section hline (by simp [sections, hpart])
  · intro f hf
    refine mem_lines_of_section f.setterSignature_mem ?_
    have haccessors : f.setterLines ∈ c.fields.flatMap fun f => [f.getterLines, f.setterLines] :=
      List.mem_flatMap.mpr ⟨f, hf, by simp⟩
    simp only [sections, List.mem_append]
    exact .inl (.inl (.inl (.inr haccessors)))

/-- Only setters whose changes can be refused throw. -/
theorem mem_typeWords_throwsClauses {word : String} :
    word ∈ (c.fields.map (·.throwsClause)).flatMap typeWords
      ↔ c.vetoableChangeSupport = true ∧ word = "PropertyVetoException" := by
  have hwords : ∀ f : JavaField, typeWords f.throwsClause
      = if f.vetoableChangeSupport then ["PropertyVetoException"] else [] := by
    intro f
    rw [JavaField.throwsClause]
    cases f.vetoableChangeSupport <;> decide
  rw [List.flatMap_map, List.mem_flatMap, vetoableChangeSupport, List.any_eq_true]
  constructor
  · rintro ⟨f, hf, hword⟩
    rw [hwords] at hword
    split at hword
    · next hrefused => exact ⟨⟨f, hf, hrefused⟩, List.mem_singleton.mp hword⟩
    · cases hword
  · rintro ⟨⟨f, hf, hrefused⟩, rfl⟩
    refine ⟨f, hf, ?_⟩
    rw [hwords, if_pos hrefused]
    exact List.mem_cons_self

/-- The types that report changes are those of the package `java.beans` whose names stand in the code that reports
changes. -/
theorem mem_changeTypes_iff :
    type ∈ c.changeTypes ↔ ∃ word ∈ c.changeCode.flatMap typeWords, type = "java.beans." ++ word := by
  have hfields : c.changeFieldLines.flatMap typeWords =
      (if c.propertyChangeSupport then ["PropertyChangeSupport", "PropertyChangeSupport"] else [])
        ++ (if c.vetoableChangeSupport then ["VetoableChangeSupport", "VetoableChangeSupport"] else []) := by
    rw [changeFieldLines, List.flatMap_append]
    -- Each kind of change writes its lines alone, so that each line is cut into words once.
    refine congrArg₂ (· ++ ·) ?_ ?_
    · cases c.propertyChangeSupport <;> decide +kernel
    · cases c.vetoableChangeSupport <;> decide +kernel
  have hlisteners : c.listenerSections.flatten.flatMap typeWords =
      (if c.propertyChangeSupport then ["PropertyChangeListener", "PropertyChangeListener"] else [])
        ++ (if c.vetoableChangeSupport then ["VetoableChangeListener", "VetoableChangeListener"] else []) := by
    rw [listenerSections, List.flatten_append, List.flatMap_append]
    refine congrArg₂ (· ++ ·) ?_ ?_
    · cases c.propertyChangeSupport <;> decide +kernel
    · cases c.vetoableChangeSupport <;> decide +kernel
  simp only [changeCode, List.flatMap_append, hfields, hlisteners, List.mem_append, mem_typeWords_throwsClauses,
    changeTypes]
  cases c.propertyChangeSupport <;> cases c.vetoableChangeSupport
  · simp
  · simp [or_and_right, exists_or, or_assoc]
  · simp [or_and_right, exists_or]
  · simp [or_and_right, exists_or]
    tauto

/-! ## Types that a class names -/

/-- The annotation stands above the class or above one of its fields, or in the type of a field. -/
def Carries (c : JavaClass) (use : AnnotationUse) : Prop :=
  use ∈ c.persistence ∨ use ∈ c.binding ∨ ∃ f ∈ c.fields, use ∈ f.persistence ∨ use ∈ f.constraints
    ∨ use ∈ f.keyConstraints ∨ use ∈ f.valueConstraints ∨ use ∈ f.binding

/-- The class names the type: in an annotation, as an interface or the superclass, or where it reports changes. -/
def Names (c : JavaClass) (type : String) : Prop :=
  (∃ use, c.Carries use ∧ type ∈ use.code.imports) ∨ type ∈ c.interfaces ∨ type ∈ c.superclass
    ∨ ∃ word ∈ c.changeCode.flatMap typeWords, type = "java.beans." ++ word

theorem mem_uses_iff {use : AnnotationUse} : use ∈ c.uses ↔ c.Carries use := by
  simp only [uses, JavaField.uses, Carries, List.mem_append, List.mem_flatMap, or_assoc]

theorem mem_namedTypes_iff : type ∈ c.namedTypes ↔ c.Names type := by
  rw [namedTypes, Names, List.mem_append, List.mem_append, List.mem_append, List.mem_flatMap, mem_changeTypes_iff,
    Option.mem_toList, Option.mem_def, or_assoc, or_assoc]
  simp only [mem_uses_iff]

end JavaClass

/-- The type lies in a package of its own, which is neither `java.lang` nor the given one. -/
def IsForeign (package type : String) : Prop :=
  ∃ home name : String, type = home ++ "." ++ name ∧ '.' ∉ name.toList ∧ home ≠ "java.lang" ∧ home ≠ package

namespace JavaClass

variable {c : JavaClass} {type : String}

/-- Foreign types have to be imported, and no other types. -/
theorem needsImport_iff : c.needsImport type = true ↔ IsForeign c.package type := by
  have hhome : c.needsImport type = true
      ↔ ∃ home, Text.beforeLast? '.' type = some home ∧ home ≠ "java.lang" ∧ home ≠ c.package := by
    rw [needsImport]
    cases Text.beforeLast? '.' type with
    | none => simp
    | some home => simp
  rw [hhome]
  constructor
  · rintro ⟨home, hbefore, hlang, hown⟩
    obtain ⟨name, htype, hname⟩ := Text.beforeLast?_eq_some_iff.mp hbefore
    exact ⟨home, name, htype, hname, hlang, hown⟩
  · rintro ⟨home, name, htype, hname, hlang, hown⟩
    exact ⟨home, Text.beforeLast?_eq_some_iff.mpr ⟨name, htype, hname⟩, hlang, hown⟩

/-- The types that are imported are the foreign types that the class names. -/
theorem mem_requiredImports_iff : type ∈ c.requiredImports ↔ c.Names type ∧ IsForeign c.package type := by
  rw [requiredImports, Text.mem_sortedSet, List.mem_filter, mem_namedTypes_iff, needsImport_iff]

/-! ## The group of imports -/

/-- The lines before the imports: what is written by hand before the package, and the package. -/
def headLines (c : JavaClass) : List String :=
  blocks 0 (c.snippets.textsAt .beforePackage) ++ (if c.package = "" then [] else ["package " ++ c.package ++ ";", ""])

/-- The lines after the imports: the class with what is written by hand around it. -/
def classLines (c : JavaClass) : List String :=
  blocks 0 (c.snippets.textsAt .typeJavadoc) ++ blocks 0 (c.snippets.textsAt .beforeClass)
    ++ (c.persistence ++ c.binding).map (·.text) ++ blocks 0 (c.annotations.textsAt .type) ++ [c.header]
    ++ joinSections (c.sections.filter (!·.isEmpty)) ++ ["\x7d"] ++ blocks 0 (c.snippets.textsAt .afterClass)

/-- The imports stand between the package and the class, with a blank line behind them unless there are none. -/
theorem lines_eq : c.lines
    = c.headLines ++ c.importStatements ++ (if c.importStatements = [] then [] else [""]) ++ c.classLines := by
  rw [lines, preambleLines, packageLines, headLines, classLines]
  by_cases hnone : c.importStatements = []
  · simp [hnone]
  · simp [hnone]

end JavaClass

/-! ## Imports written by hand -/

/-- The lines by which a class of a metamodel imports. -/
inductive ImportLine (model : Metamodel) (c : ClassModel) (artifact : JavaClass) : String → Prop
  /-- A foreign type that the class names is imported. -/
  | named {type : String} (h : artifact.Names type) (hforeign : IsForeign (c.packageOr model.package) type) :
      ImportLine model c artifact ("import " ++ type ++ ";")
  /-- An import written by hand for the class. -/
  | byClass {raw : String} (h : raw ∈ codeAt (c.code model) .importStatement) :
      ImportLine model c artifact (importStatement raw)
  /-- An import written by hand for an attribute. -/
  | byAttribute {a : Attribute} {raw : String} (ha : a ∈ c.attributes) (h : raw ∈ codeAt a.code .importStatement) :
      ImportLine model c artifact (importStatement raw)

section Class

variable {model : Metamodel} {options : GenerationOptions} {c : ClassModel} {artifact : JavaClass} {line : String}

/-- The imports of fields are those that are written by hand for their attributes. -/
theorem TakenFrom.mem_fieldImports_iff (h : TakenFrom model options c artifact) :
    line ∈ artifact.fields.flatMap (·.snippets.textsAt .importStatement)
      ↔ ∃ a ∈ c.attributes, ∃ raw ∈ codeAt a.code .importStatement, importStatement raw = line := by
  have htexts : ∀ {a : Attribute} {f : JavaField}, JavaField.ofAttribute options c a = .ok f →
      f.snippets.textsAt .importStatement = (codeAt a.code .importStatement).map importStatement := by
    intro a f hfield
    obtain ⟨-, -, -, hsnippets⟩ := JavaField.eq_of_ofAttribute_eq_ok hfield
    rw [hsnippets]
    exact textsAt_ofSnippets_import a.code rfl
  rw [List.mem_flatMap]
  constructor
  · rintro ⟨f, hf, hline⟩
    obtain ⟨a, ha, hfield⟩ := exists_mem_right_of_forall₂ h.fields.flip hf
    rw [htexts hfield] at hline
    exact ⟨a, ha, List.mem_map.mp hline⟩
  · rintro ⟨a, ha, hraw⟩
    obtain ⟨f, hf, hfield⟩ := exists_mem_right_of_forall₂ h.fields ha
    refine ⟨f, hf, ?_⟩
    rw [htexts hfield]
    exact List.mem_map.mpr hraw

/-- The imports of a class that is taken from a metamodel are its import lines. -/
theorem TakenFrom.mem_importStatements_iff (h : TakenFrom model options c artifact)
    (hpackage : artifact.package = c.packageOr model.package) :
    line ∈ artifact.importStatements ↔ ImportLine model c artifact line := by
  rw [JavaClass.importStatements, Text.mem_sortedSet, List.mem_append, List.mem_append, h.mem_fieldImports_iff,
    h.snippets, textsAt_ofSnippets_import _ rfl]
  constructor
  · rintro ((hnamed | hclass) | ⟨a, ha, raw, hraw, rfl⟩)
    · obtain ⟨type, htype, rfl⟩ := List.mem_map.mp hnamed
      rw [JavaClass.mem_requiredImports_iff, hpackage] at htype
      exact .named htype.1 htype.2
    · obtain ⟨raw, hraw, rfl⟩ := List.mem_map.mp hclass
      exact .byClass hraw
    · exact .byAttribute ha hraw
  · intro hline
    cases hline with
    | @named type hnames hforeign =>
      refine .inl (.inl (List.mem_map.mpr ⟨type, JavaClass.mem_requiredImports_iff.mpr ⟨hnames, ?_⟩, rfl⟩))
      rwa [hpackage]
    | byClass hraw => exact .inl (.inr (List.mem_map_of_mem hraw))
    | byAttribute ha hraw => exact .inr ⟨_, ha, _, hraw, rfl⟩

end Class

/-! ## Assembled classes -/

section Assembled

variable {σ : Type} [PrimeSource σ] {model : Metamodel} {options : GenerationOptions} {c : ClassModel}
  {primes primes' : σ} {artifact : JavaClass}

theorem package_of_assemble_eq_ok (h : assemble model options c primes = (.ok artifact, primes')) :
    artifact.package = c.packageOr model.package := by
  obtain ⟨parts, pair, -, hfinish⟩ := exists_parts_of_assemble_eq_ok h
  obtain ⟨_, _, -, -, rfl⟩ := Draft.exists_methods_of_finish hfinish
  rfl

/-- All annotations of an assembled class are closed. -/
theorem closed_of_carries (h : assemble model options c primes = (.ok artifact, primes')) {use : AnnotationUse}
    (huse : artifact.Carries use) : use.Closed := by
  obtain ⟨parts, pair, -, hfinish⟩ := exists_parts_of_assemble_eq_ok h
  obtain ⟨_, _, -, -, rfl⟩ := Draft.exists_methods_of_finish hfinish
  rcases huse with huse | huse | ⟨f, hf, huse⟩
  · exact Persistence.closed_of_mem_classUses use huse
  · exact ClassBinding.closed_of_mem_uses parts.binding_eq use huse
  · obtain ⟨a, -, hfield⟩ := exists_mem_right_of_forall₂ parts.ofAttribute_fields.flip hf
    obtain ⟨_, _, _, _, hpersistence, hconstraints, hkeys, hvalues, rfl⟩ :=
      JavaField.exists_uses_of_ofAttribute_eq_ok hfield
    rcases huse with huse | huse | huse | huse | huse
    · exact Persistence.closed_of_mem_attributeUses hpersistence use huse
    · exact Constraint.closed_of_mem_uses hconstraints use huse
    · exact Constraint.closed_of_mem_uses hkeys use huse
    · exact Constraint.closed_of_mem_uses hvalues use huse
    · exact AttributeBinding.closed_of_mem_uses use huse

/-- **Imports are closed**: in a class that can be assembled, every annotation needs the types that it names, and the
imports of the source are exactly those of the foreign types that the class names and those written by hand, each once
and in ascending order. -/
theorem imports_are_closed (h : assemble model options c primes = (.ok artifact, primes')) :
    (∀ use, artifact.Carries use → use.Closed)
      ∧ artifact.source = Text.unlines (artifact.headLines ++ artifact.importStatements
        ++ (if artifact.importStatements = [] then [] else [""]) ++ artifact.classLines)
      ∧ artifact.importStatements.Pairwise (· < ·)
      ∧ ∀ line, line ∈ artifact.importStatements ↔ ImportLine model c artifact line := by
  refine ⟨fun use huse => closed_of_carries h huse, ?_, Text.pairwise_sortedSet _, fun line => ?_⟩
  · rw [JavaClass.source, JavaClass.lines_eq]
  · exact (takenFrom_of_assemble_eq_ok h).mem_importStatements_iff (package_of_assemble_eq_ok h)

end Assembled

/-- A code with a converter and a pattern, whose changes can be refused, and with an import written by hand. -/
def convertedCode : Attribute :=
  { Attribute.plain "code" "String" with
    convert := some { converter := some "shop.codes.CodeConverter", disableConversion := false, attributeName := none }
    constraints := [.of (.pattern (some "[A-Z]+") [.dotall])]
    vetoableChangeSupport := true
    snippets := [.of " java.util.UUID " .importStatement] }

/-- An entity with that code and an interface of its own package. -/
def codedItem : ClassModel :=
  { ClassModel.empty "Item" .entity with
    interfaces := [.of "shop.Coded"]
    attributes := [convertedCode] }

def codedShop : Metamodel :=
  { Metamodel.empty "shop" with classes := [codedItem] }

/-- The standard options, with support for changes. -/
def changeOptions : GenerationOptions :=
  { GenerationOptions.standard with javaSeSupport := true }

/-- The type of the flag and the converter are imported, the interface of the same package is not. -/
theorem imports_are_closed_codedItem :
    ∃ (artifact : JavaClass) (primes : PrimeSupply),
      assemble codedShop changeOptions codedItem (PrimeSupply.fixed .standard) = (.ok artifact, primes)
        ∧ artifact.importStatements =
          ["import java.beans.PropertyVetoException;", "import java.beans.VetoableChangeListener;",
            "import java.beans.VetoableChangeSupport;", "import java.util.UUID;", "import javax.persistence.Convert;",
            "import javax.persistence.Entity;", "import javax.validation.constraints.Pattern;",
            "import shop.codes.CodeConverter;"]
        ∧ (∀ use, artifact.Carries use → use.Closed)
        ∧ ImportLine codedShop codedItem artifact "import shop.codes.CodeConverter;"
        ∧ ¬ImportLine codedShop codedItem artifact "import shop.Coded;" := by
  have himports : (assemble codedShop changeOptions codedItem (PrimeSupply.fixed .standard)).1.toOption.map
      (·.importStatements) = some
        ["import java.beans.PropertyVetoException;", "import java.beans.VetoableChangeListener;",
          "import java.beans.VetoableChangeSupport;", "import java.util.UUID;", "import javax.persistence.Convert;",
          "import javax.persistence.Entity;", "import javax.validation.constraints.Pattern;",
          "import shop.codes.CodeConverter;"] := by
    decide +kernel
  rcases hassemble : assemble codedShop changeOptions codedItem (PrimeSupply.fixed .standard) with ⟨result, primes⟩
  rw [hassemble, Option.map_eq_some_iff] at himports
  obtain ⟨artifact, hartifact, himports⟩ := himports
  obtain rfl := toOption_eq_some_iff.mp hartifact
  obtain ⟨hclosed, -, -, hlines⟩ := imports_are_closed hassemble
  refine ⟨artifact, primes, rfl, himports, hclosed, ?_, ?_⟩
  · rw [← hlines, himports]
    decide
  · rw [← hlines, himports]
    decide

end EntityForge
