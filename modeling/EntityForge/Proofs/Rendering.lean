import EntityForge.Proofs.FieldMemo
import EntityForge.Proofs.Occurrence

/-!
# Rendering loses nothing

What an author writes by hand for a class and its attributes, and what is generated for it, are passages of its source.
`passages` lists them in the order of the source, told by the metamodel alone where they are written by hand. All of them
occur in the source in this order, each in one piece and moved in as its place demands.

Main statement: `source_renders_everything`.
-/

namespace EntityForge

open Java

/-! ## Passages -/

/-- A passage of a source. -/
inductive Passage where
  /-- A text whose lines are moved in one by one. -/
  | block (depth : Nat) (text : String)
  /-- A text that is moved in as one line. -/
  | line (depth : Nat) (text : String)

namespace Passage

/-- The lines that the layout has for the passage. -/
def written : Passage → List String
  | .block depth text => Layout.block depth text
  | .line depth text => [Layout.indent depth text]

/-- Four blanks for each level in front of the characters, if there are any. -/
def movedIn (depth : Nat) (cs : List Char) : String :=
  String.ofList (if cs = [] then [] else List.replicate (4 * depth) ' ' ++ cs)

/-- The lines of the source that the passage takes up: the rows of its text, each moved in, or its text moved in as a
whole and cut at its line feeds. -/
def rows : Passage → List String
  | .block depth text => (Text.rowsOf text.toList).map (movedIn depth)
  | .line depth text => Text.cutLines (movedIn depth text.toList)

theorem indent_ofList (depth : Nat) (cs : List Char) : Layout.indent depth (String.ofList cs) = movedIn depth cs := by
  rw [Layout.indent, movedIn]
  by_cases hempty : cs = []
  · simp [hempty]
  · have hne : String.ofList cs ≠ "" := by
      intro heq
      exact hempty (by simpa using congrArg String.toList heq)
    rw [if_neg hne, if_neg hempty, String.ofList_append]

/-- The layout has the rows of a block. -/
theorem block_eq_rows (depth : Nat) (text : String) : Layout.block depth text = (block depth text).rows := by
  rw [Layout.block, Text.lines, Text.lineChars_eq_rowsOf, List.map_map]
  exact List.map_congr_left fun cs _ => indent_ofList depth cs

theorem flatMap_cutLines_written (p : Passage) : p.written.flatMap Text.cutLines = p.rows := by
  cases p with
  | block depth text =>
    rw [written, Text.cutLines_block]
    exact block_eq_rows depth text
  | line depth text =>
    have hline := indent_ofList depth text.toList
    rw [String.ofList_toList] at hline
    rw [written, List.flatMap_singleton, hline, rows]

/-- A block for each text. -/
def blocks (depth : Nat) (texts : List String) : List Passage :=
  texts.map (.block depth)

/-- A line for each text. -/
def lines (depth : Nat) (texts : List String) : List Passage :=
  texts.map (.line depth)

@[simp] theorem mem_blocks {depth : Nat} {texts : List String} {text : String} :
    .block depth text ∈ blocks depth texts ↔ text ∈ texts := by
  simp [blocks]

end Passage

open Passage (blocks lines)

/-! ## What is written by hand -/

section ByHand

variable {L : Type} [DecidableEq L]

/-- The enabled code at a place that is not blank, in its order. -/
def codeAt (snippets : List (SnippetAt L)) (place : L) : List String :=
  (snippets.filter fun s => s.location == place && (s.enabled && !Text.isBlank s.value)).map (·.value)

/-- The enabled annotations at a place that are not blank, in their order. -/
def annotationsAt (annotations : List (AnnotationAt L)) (place : L) : List String :=
  (annotations.filter fun a => a.location == place && (a.enabled && !Text.isBlank a.name)).map
    fun a => Placed.withAtSign (Text.trim a.name)

theorem mem_codeAt {snippets : List (SnippetAt L)} {s : SnippetAt L} (hs : s ∈ snippets)
    (henabled : s.enabled = true) (hblank : Text.isBlank s.value = false) :
    s.value ∈ codeAt snippets s.location := by
  refine List.mem_map.mpr ⟨s, List.mem_filter.mpr ⟨hs, ?_⟩, rfl⟩
  simp [henabled, hblank]

theorem mem_annotationsAt {annotations : List (AnnotationAt L)} {a : AnnotationAt L}
    (ha : a ∈ annotations) (henabled : a.enabled = true) (hblank : Text.isBlank a.name = false) :
    Placed.withAtSign (Text.trim a.name) ∈ annotationsAt annotations a.location := by
  refine List.mem_map.mpr ⟨a, List.mem_filter.mpr ⟨ha, ?_⟩, rfl⟩
  simp [henabled, hblank]

/-- Code is kept with its place: as an import statement at places of imports, and elsewhere as it is given. -/
theorem textsAt_ofSnippets_eq_map [CodePlace L] (snippets : List (SnippetAt L)) (place : L) :
    (Placed.ofSnippets snippets).textsAt place
      = (codeAt snippets place).map fun raw => if CodePlace.isImport place then importStatement raw else raw := by
  unfold Placed.textsAt Placed.ofSnippets codeAt
  rw [List.filter_map, List.map_map, List.filter_filter, List.map_map]
  apply List.map_congr_left
  intro s hs
  have hlocation : s.location = place := by
    have hkept := (List.mem_filter.mp hs).2
    rw [Bool.and_eq_true] at hkept
    simpa using hkept.1
  rw [Function.comp_apply, Function.comp_apply, hlocation]

theorem textsAt_ofSnippets [CodePlace L] (snippets : List (SnippetAt L)) {place : L}
    (hplace : CodePlace.isImport place = false) :
    (Placed.ofSnippets snippets).textsAt place = codeAt snippets place := by
  simp only [textsAt_ofSnippets_eq_map, hplace, Bool.false_eq_true, if_false, List.map_id']

theorem textsAt_ofSnippets_import [CodePlace L] (snippets : List (SnippetAt L)) {place : L}
    (hplace : CodePlace.isImport place = true) :
    (Placed.ofSnippets snippets).textsAt place = (codeAt snippets place).map importStatement := by
  simp only [textsAt_ofSnippets_eq_map, hplace, if_true]

theorem textsAt_ofAnnotations (annotations : List (AnnotationAt L)) (place : L) :
    (Placed.ofAnnotations annotations).textsAt place = annotationsAt annotations place := by
  unfold Placed.textsAt Placed.ofAnnotations annotationsAt
  rw [List.filter_map, List.map_map, List.filter_filter]
  rfl

end ByHand

/-- The code of a class: what all classes share, its own, and what other tools add. -/
def ClassModel.code (c : ClassModel) (model : Metamodel) : List (SnippetAt ClassPlace) :=
  model.snippets ++ c.snippets ++ c.runtimeSnippets

/-- The annotations of a class: its own, and what other tools add. -/
def ClassModel.allAnnotations (c : ClassModel) : List (AnnotationAt ClassAnnotationPlace) :=
  c.annotations ++ c.runtimeAnnotations

/-- The code of an attribute: its own, and what other tools add. -/
def Attribute.code (a : Attribute) : List (SnippetAt AttributePlace) :=
  a.snippets ++ a.runtimeSnippets

/-- The annotations of an attribute: its own, and what other tools add. -/
def Attribute.allAnnotations (a : Attribute) : List (AnnotationAt AttributeAnnotationPlace) :=
  a.annotations ++ a.runtimeAnnotations

/-- How far code at a place of a class is moved in. -/
def ClassPlace.depth : ClassPlace → Nat
  | .beforePackage | .importStatement | .typeJavadoc | .beforeClass | .afterClass => 0
  | .beforeField | .afterField | .beforeMethod | .afterMethod => 1

/-- How far code at a place of an attribute is moved in. Code inside an accessor is moved in once more. -/
def AttributePlace.depth : AttributePlace → Nat
  | .preGetter | .postGetter | .preSetter | .postSetter => 2
  | _ => 1

/-! ## The passages of a source -/

/-- The passages of the field of an attribute. -/
def fieldPassages (a : Attribute) (f : JavaField) : List Passage :=
  lines 1 f.commentLines ++ blocks 1 (codeAt a.code .propertyJavadoc)
    ++ blocks 1 (codeAt a.code .beforeProperty)
    ++ lines 1 ((f.persistence ++ f.constraints ++ f.binding).map (·.text))
    ++ blocks 1 (annotationsAt a.allAnnotations .property) ++ [.line 1 f.declaration]
    ++ blocks 1 (codeAt a.code .afterProperty)

/-- The passages of the getter of an attribute. -/
def getterPassages (a : Attribute) (f : JavaField) : List Passage :=
  blocks 1 (codeAt a.code .getterJavadoc) ++ blocks 1 (codeAt a.code .beforeGetter)
    ++ blocks 1 (annotationsAt a.allAnnotations .getter)
    ++ [.line 1 ("public " ++ f.type ++ " " ++ f.getterName ++ "() \x7b")]
    ++ blocks 2 (codeAt a.code .preGetter) ++ blocks 2 (codeAt a.code .postGetter)
    ++ [.line 2 ("return this." ++ f.name ++ ";"), .line 1 "\x7d"]
    ++ blocks 1 (codeAt a.code .afterGetter)

/-- The passages of the setter of an attribute. -/
def setterPassages (a : Attribute) (f : JavaField) : List Passage :=
  blocks 1 (codeAt a.code .setterJavadoc) ++ blocks 1 (codeAt a.code .beforeSetter)
    ++ blocks 1 (annotationsAt a.allAnnotations .setter)
    ++ [.line 1 ("public void " ++ f.setterName ++ "(" ++ f.type ++ " " ++ f.name ++ ")"
      ++ (if f.vetoableChangeSupport then " throws PropertyVetoException" else "") ++ " \x7b")]
    ++ blocks 2 (codeAt a.code .preSetter) ++ lines 2 f.setterStatements
    ++ blocks 2 (codeAt a.code .postSetter) ++ [.line 1 "\x7d"]
    ++ blocks 1 (codeAt a.code .afterSetter)

/-- The passages of a method with the given signature, if it has a body. -/
def methodPassages (signature : String) : Option (List Statement) → List Passage
  | none => []
  | some body =>
    [.line 1 "@Override", .line 1 (signature ++ " \x7b"), .block 2 (bodyText body), .line 1 "\x7d"]

section Class

variable (model : Metamodel) (c : ClassModel) (artifact : JavaClass)

/-- The passages up to the line that opens the class. -/
def preamblePassages : List Passage :=
  blocks 0 (codeAt (c.code model) .beforePackage) ++ lines 0 artifact.packageLines
    ++ blocks 0 (codeAt (c.code model) .typeJavadoc)
    ++ blocks 0 (codeAt (c.code model) .beforeClass)
    ++ lines 0 ((artifact.persistence ++ artifact.binding).map (·.text))
    ++ blocks 0 (annotationsAt c.allAnnotations .type) ++ [.line 0 artifact.header]

/-- The passages of all fields. -/
def fieldSectionPassages : List Passage :=
  blocks 1 (codeAt (c.code model) .beforeField) ++ lines 0 artifact.changeFieldLines
    ++ (c.attributes.zip artifact.fields).flatMap (fun (a, f) => fieldPassages a f)
    ++ blocks 1 (codeAt (c.code model) .afterField)

/-- The passages between the line that opens the class and the closing brace, section by section. -/
def sectionPassages : List (List Passage) :=
  [fieldSectionPassages model c artifact]
    ++ artifact.constructors.map (fun k => [.block 1 (k.signature artifact.name).text])
    ++ [blocks 1 (codeAt (c.code model) .beforeMethod)]
    ++ (c.attributes.zip artifact.fields).flatMap
      (fun (a, f) => [getterPassages a f, setterPassages a f])
    ++ [methodPassages "public boolean equals(Object obj)" artifact.equalsMethod,
      methodPassages "public int hashCode()" artifact.hashCodeMethod,
      methodPassages "public String toString()" artifact.toStringMethod]
    ++ artifact.listenerSections.map (lines 0)
    ++ [blocks 1 (codeAt (c.code model) .afterMethod)]

/-- All passages of the source of a class, in their order. -/
def passages : List Passage :=
  preamblePassages model c artifact ++ (sectionPassages model c artifact).flatten ++ [.line 0 "\x7d"]
    ++ blocks 0 (codeAt (c.code model) .afterClass)

end Class

/-- The passages hold all that is written by hand, moved in as its place demands, and all that is generated for
constructors and methods. -/
structure HoldsEverything (model : Metamodel) (c : ClassModel) (artifact : JavaClass)
    (passages : List Passage) : Prop where
  classCode : ∀ s ∈ c.code model, s.enabled = true → Text.isBlank s.value = false →
    s.location ≠ .importStatement → .block s.location.depth s.value ∈ passages
  classAnnotations : ∀ a ∈ c.allAnnotations, a.enabled = true → Text.isBlank a.name = false →
    .block 0 (Placed.withAtSign (Text.trim a.name)) ∈ passages
  attributeCode : ∀ a ∈ c.attributes, ∀ s ∈ a.code, s.enabled = true →
    Text.isBlank s.value = false → s.location ≠ .importStatement →
    .block s.location.depth s.value ∈ passages
  attributeAnnotations : ∀ a ∈ c.attributes, ∀ mark ∈ a.allAnnotations,
    mark.enabled = true → Text.isBlank mark.name = false →
    .block 1 (Placed.withAtSign (Text.trim mark.name)) ∈ passages
  constructors : ∀ k ∈ artifact.constructors,
    .block 1 (k.signature artifact.name).text ∈ passages
  equalsBody : ∀ body ∈ artifact.equalsMethod, .block 2 (bodyText body) ∈ passages
  hashCodeBody : ∀ body ∈ artifact.hashCodeMethod, .block 2 (bodyText body) ∈ passages
  toStringBody : ∀ body ∈ artifact.toStringMethod, .block 2 (bodyText body) ∈ passages

/-! ## Passages in lines -/

/-- The passages occur in the lines of a layout, in their order. -/
def Renders (passages : List Passage) (lines : List String) : Prop :=
  InOrder (passages.map Passage.written) lines

namespace Renders

variable {passages passages' : List Passage} {written written' : List String}

theorem append (h : Renders passages written) (h' : Renders passages' written') :
    Renders (passages ++ passages') (written ++ written') := by
  unfold Renders at h h' ⊢
  rw [List.map_append]
  exact InOrder.append h h'

/-- Passages occur in what is written of them. -/
theorem of_written (h : passages.flatMap Passage.written = written) : Renders passages written := by
  rw [← h]
  exact InOrder.flatten (passages.map Passage.written)

/-- Sections in which passages occur are put together with all these passages. -/
theorem sections {parts : List (List Passage)} {sections : List (List String)}
    (hparts : List.Forall₂ Renders parts sections) (h : InOrder sections written) :
    Renders parts.flatten written := by
  unfold Renders
  rw [List.map_flatten]
  exact h.refine (List.forall₂_map_left_iff.mpr hparts)

end Renders

theorem written_blocks (depth : Nat) (texts : List String) :
    (blocks depth texts).flatMap Passage.written = Layout.blocks depth texts := by
  unfold Passage.blocks
  rw [List.flatMap_map]
  rfl

theorem written_lines (depth : Nat) (texts : List String) :
    (lines depth texts).flatMap Passage.written = texts.map (Layout.indent depth) := by
  unfold Passage.lines
  rw [List.flatMap_map]
  exact List.flatMap_pure_eq_map _ _

/-! ## Fields and accessors -/

section Field

variable {options : GenerationOptions} {c : ClassModel} {a : Attribute} {f : JavaField}

theorem textsAt_snippets (h : JavaField.ofAttribute options c a = .ok f) {place : AttributePlace}
    (hplace : CodePlace.isImport place = false) : f.snippets.textsAt place = codeAt a.code place := by
  obtain ⟨-, -, -, hsnippets⟩ := JavaField.eq_of_ofAttribute_eq_ok h
  rw [hsnippets]
  exact textsAt_ofSnippets a.code hplace

theorem textsAt_annotations (h : JavaField.ofAttribute options c a = .ok f)
    (place : AttributeAnnotationPlace) :
    f.annotations.textsAt place = annotationsAt a.allAnnotations place := by
  obtain ⟨-, -, hannotations, -⟩ := JavaField.eq_of_ofAttribute_eq_ok h
  rw [hannotations]
  exact textsAt_ofAnnotations a.allAnnotations place

/-- A field is written passage by passage. -/
theorem written_fieldPassages (h : JavaField.ofAttribute options c a = .ok f) :
    (fieldPassages a f).flatMap Passage.written = f.fieldLines := by
  unfold fieldPassages JavaField.fieldLines
  rw [textsAt_snippets h rfl, textsAt_snippets h rfl, textsAt_snippets h rfl,
    textsAt_annotations h .property]
  simp only [List.flatMap_append, written_blocks, written_lines, List.map_map]
  rfl

/-- A getter is written passage by passage. -/
theorem written_getterPassages (h : JavaField.ofAttribute options c a = .ok f) :
    (getterPassages a f).flatMap Passage.written = f.getterLines := by
  unfold getterPassages JavaField.getterLines
  rw [textsAt_snippets h rfl, textsAt_snippets h rfl, textsAt_snippets h rfl,
    textsAt_snippets h rfl, textsAt_snippets h rfl, textsAt_annotations h .getter]
  simp only [List.flatMap_append, written_blocks]
  rfl

/-- A setter is written passage by passage. -/
theorem written_setterPassages (h : JavaField.ofAttribute options c a = .ok f) :
    (setterPassages a f).flatMap Passage.written = f.setterLines := by
  unfold setterPassages JavaField.setterLines
  rw [textsAt_snippets h rfl, textsAt_snippets h rfl, textsAt_snippets h rfl,
    textsAt_snippets h rfl, textsAt_snippets h rfl, textsAt_annotations h .setter]
  simp only [List.flatMap_append, written_blocks, written_lines]
  rfl

/-- The passages of fields occur in the lines of these fields, field by field. -/
theorem renders_fields {attributes : List Attribute} {fields : List JavaField}
    (h : List.Forall₂ (fun a f => JavaField.ofAttribute options c a = .ok f) attributes fields) :
    List.Forall₂ Renders ((attributes.zip fields).map fun (a, f) => fieldPassages a f)
      (fields.map (·.fieldLines)) := by
  induction h with
  | nil => exact .nil
  | cons hfield _ ih => exact .cons (.of_written (written_fieldPassages hfield)) ih

/-- The passages of accessors occur in the lines of these accessors, field by field. -/
theorem renders_accessors {attributes : List Attribute} {fields : List JavaField}
    (h : List.Forall₂ (fun a f => JavaField.ofAttribute options c a = .ok f) attributes fields) :
    List.Forall₂ Renders
      ((attributes.zip fields).flatMap fun (a, f) => [getterPassages a f, setterPassages a f])
      (fields.flatMap fun f => [f.getterLines, f.setterLines]) := by
  induction h with
  | nil => exact .nil
  | cons hfield _ ih =>
    exact .cons (.of_written (written_getterPassages hfield))
      (.cons (.of_written (written_setterPassages hfield)) ih)

end Field

theorem written_methodPassages (signature : String) (body : Option (List Statement)) :
    (methodPassages signature body).flatMap Passage.written
      = JavaClass.methodSection signature body := by
  cases body with
  | none => rfl
  | some body => rfl

/-! ## Classes -/

/-- The class has the code and the annotations of the metamodel, and a field for each attribute. -/
structure TakenFrom (model : Metamodel) (options : GenerationOptions) (c : ClassModel)
    (artifact : JavaClass) : Prop where
  snippets : artifact.snippets = .ofSnippets (c.code model)
  annotations : artifact.annotations = .ofAnnotations c.allAnnotations
  fields : List.Forall₂ (fun a f => JavaField.ofAttribute options c a = .ok f) c.attributes
    artifact.fields

section Class

variable {model : Metamodel} {options : GenerationOptions} {c : ClassModel} {artifact : JavaClass}

theorem TakenFrom.textsAt_snippets (h : TakenFrom model options c artifact) {place : ClassPlace}
    (hplace : CodePlace.isImport place = false) :
    artifact.snippets.textsAt place = codeAt (c.code model) place := by
  rw [h.snippets]
  exact textsAt_ofSnippets (c.code model) hplace

theorem indent_zero (line : String) : Layout.indent 0 line = line := by
  unfold Layout.indent
  split
  · next h => exact h.symm
  · show String.ofList [] ++ line = line
    rw [String.ofList_nil, String.empty_append]

theorem written_lines_zero (texts : List String) :
    (lines 0 texts).flatMap Passage.written = texts := by
  rw [written_lines, List.map_congr_left fun line _ => indent_zero line, List.map_id']

/-- The lines up to the one that opens the class are written passage by passage. -/
theorem written_preamblePassages (h : TakenFrom model options c artifact) :
    (preamblePassages model c artifact).flatMap Passage.written = artifact.preambleLines := by
  unfold preamblePassages JavaClass.preambleLines
  rw [h.textsAt_snippets rfl, h.textsAt_snippets rfl, h.textsAt_snippets rfl, h.annotations,
    textsAt_ofAnnotations]
  simp only [List.flatMap_append, written_blocks, written_lines_zero]
  show _ ++ [Layout.indent 0 artifact.header] = _
  rw [indent_zero]

/-- The passages of the fields occur in the field section. -/
theorem renders_fieldSection (h : TakenFrom model options c artifact) :
    Renders (fieldSectionPassages model c artifact) artifact.fieldSection := by
  have hfields : Renders ((c.attributes.zip artifact.fields).flatMap fun (a, f) => fieldPassages a f)
      (Layout.joinSections (artifact.fields.map (·.fieldLines))) :=
    Renders.sections (renders_fields h.fields) (Layout.inOrder_joinSections _)
  unfold fieldSectionPassages JavaClass.fieldSection
  rw [h.textsAt_snippets rfl, h.textsAt_snippets rfl]
  apply Renders.append
  · apply Renders.append
    · apply Renders.append
      · exact .of_written (written_blocks 1 _)
      · exact .of_written (written_lines_zero artifact.changeFieldLines)
    · exact hfields
  · exact .of_written (written_blocks 1 _)

/-- The passages of the body occur in its sections, section by section. -/
theorem renders_sections (h : TakenFrom model options c artifact) :
    List.Forall₂ Renders (sectionPassages model c artifact) artifact.sections := by
  have hconstructors : List.Forall₂ Renders
      (artifact.constructors.map fun k => [Passage.block 1 (k.signature artifact.name).text])
      (artifact.constructors.map fun k => Layout.block 1 (k.signature artifact.name).text) := by
    rw [List.forall₂_map_left_iff, List.forall₂_map_right_iff, List.forall₂_same]
    intro k _
    exact .of_written (List.flatMap_singleton _ _)
  have hlisteners : List.Forall₂ Renders (artifact.listenerSections.map (lines 0))
      artifact.listenerSections := by
    rw [List.forall₂_map_left_iff, List.forall₂_same]
    intro texts _
    exact .of_written (written_lines_zero texts)
  have hblocks : ∀ place, CodePlace.isImport place = false →
      List.Forall₂ Renders [blocks 1 (codeAt (c.code model) place)]
        [Layout.blocks 1 (artifact.snippets.textsAt place)] := by
    intro place hplace
    rw [h.textsAt_snippets hplace]
    exact .cons (.of_written (written_blocks 1 _)) .nil
  have hmethods : List.Forall₂ Renders
      [methodPassages "public boolean equals(Object obj)" artifact.equalsMethod,
        methodPassages "public int hashCode()" artifact.hashCodeMethod,
        methodPassages "public String toString()" artifact.toStringMethod]
      [JavaClass.methodSection "public boolean equals(Object obj)" artifact.equalsMethod,
        JavaClass.methodSection "public int hashCode()" artifact.hashCodeMethod,
        JavaClass.methodSection "public String toString()" artifact.toStringMethod] :=
    .cons (.of_written (written_methodPassages _ _))
      (.cons (.of_written (written_methodPassages _ _))
        (.cons (.of_written (written_methodPassages _ _)) .nil))
  unfold sectionPassages JavaClass.sections
  apply List.rel_append
  · apply List.rel_append
    · apply List.rel_append
      · apply List.rel_append
        · apply List.rel_append
          · exact List.rel_append (.cons (renders_fieldSection h) .nil) hconstructors
          · exact hblocks .beforeMethod rfl
        · exact renders_accessors h.fields
      · exact hmethods
    · exact hlisteners
  · exact hblocks .afterMethod rfl

/-- All passages occur in the lines of the class. -/
theorem renders_lines (h : TakenFrom model options c artifact) :
    Renders (passages model c artifact) artifact.lines := by
  unfold passages JavaClass.lines
  rw [h.textsAt_snippets rfl]
  apply Renders.append
  · apply Renders.append
    · apply Renders.append
      · exact .of_written (written_preamblePassages h)
      · exact Renders.sections (renders_sections h) (Layout.inOrder_joinSections_filter _)
    · exact .of_written (written_lines_zero ["\x7d"])
  · exact .of_written (written_blocks 0 _)

/-! ## Everything is among the passages -/

theorem mem_passages_of_section {p : Passage} {part : List Passage}
    (hpart : part ∈ sectionPassages model c artifact) (hp : p ∈ part) :
    p ∈ passages model c artifact := by
  have hmem : p ∈ (sectionPassages model c artifact).flatten := List.mem_flatten.mpr ⟨part, hpart, hp⟩
  simp [passages, hmem]

/-- What is written by hand for the class is among the passages. -/
theorem mem_passages_of_classCode {s : SnippetAt ClassPlace} (hs : s ∈ c.code model)
    (henabled : s.enabled = true) (hblank : Text.isBlank s.value = false)
    (himport : s.location ≠ .importStatement) :
    .block s.location.depth s.value ∈ passages model c artifact := by
  have hmem := mem_codeAt hs henabled hblank
  cases hlocation : s.location with
  | importStatement => exact absurd hlocation himport
  | _ =>
    rw [hlocation] at hmem
    simp [passages, preamblePassages, sectionPassages, fieldSectionPassages, ClassPlace.depth, hmem]

section Fields

variable {a : Attribute} {f : JavaField} {p : Passage}

theorem mem_passages_of_field (hmem : (a, f) ∈ c.attributes.zip artifact.fields)
    (hp : p ∈ fieldPassages a f) : p ∈ passages model c artifact := by
  have hpart : fieldSectionPassages model c artifact ∈ sectionPassages model c artifact := by
    simp [sectionPassages]
  refine mem_passages_of_section hpart ?_
  have hflat : p ∈ (c.attributes.zip artifact.fields).flatMap fun (a, f) => fieldPassages a f :=
    List.mem_flatMap.mpr ⟨(a, f), hmem, hp⟩
  unfold fieldSectionPassages
  rw [List.mem_append, List.mem_append]
  exact Or.inl (Or.inr hflat)

theorem mem_passages_of_accessor (hmem : (a, f) ∈ c.attributes.zip artifact.fields)
    (hp : p ∈ getterPassages a f ∨ p ∈ setterPassages a f) : p ∈ passages model c artifact := by
  have haccessor : ∀ part ∈ [getterPassages a f, setterPassages a f],
      part ∈ sectionPassages model c artifact := by
    intro part hpart
    have hflat : part ∈ (c.attributes.zip artifact.fields).flatMap
        fun (a, f) => [getterPassages a f, setterPassages a f] :=
      List.mem_flatMap.mpr ⟨(a, f), hmem, hpart⟩
    simp only [sectionPassages, List.mem_append]
    exact Or.inl (Or.inl (Or.inl (Or.inr hflat)))
  rcases hp with hp | hp
  · exact mem_passages_of_section (haccessor _ (by simp)) hp
  · exact mem_passages_of_section (haccessor _ (by simp)) hp

/-- What is written by hand for an attribute is among the passages of its field, its getter or its setter. -/
theorem mem_passages_of_attributeCode (hmem : (a, f) ∈ c.attributes.zip artifact.fields)
    {s : SnippetAt AttributePlace} (hs : s ∈ a.code) (henabled : s.enabled = true)
    (hblank : Text.isBlank s.value = false) (himport : s.location ≠ .importStatement) :
    .block s.location.depth s.value ∈ passages model c artifact := by
  have hcode := mem_codeAt hs henabled hblank
  cases hlocation : s.location with
  | importStatement => exact absurd hlocation himport
  | propertyJavadoc | beforeProperty | afterProperty =>
    rw [hlocation] at hcode
    apply mem_passages_of_field hmem
    simp [fieldPassages, AttributePlace.depth, hcode]
  | getterJavadoc | beforeGetter | afterGetter | preGetter | postGetter =>
    rw [hlocation] at hcode
    apply mem_passages_of_accessor hmem
    left
    simp [getterPassages, AttributePlace.depth, hcode]
  | setterJavadoc | beforeSetter | afterSetter | preSetter | postSetter =>
    rw [hlocation] at hcode
    apply mem_passages_of_accessor hmem
    right
    simp [setterPassages, AttributePlace.depth, hcode]

theorem mem_passages_of_attributeAnnotation (hmem : (a, f) ∈ c.attributes.zip artifact.fields)
    {mark : AnnotationAt AttributeAnnotationPlace} (hmark : mark ∈ a.allAnnotations)
    (henabled : mark.enabled = true) (hblank : Text.isBlank mark.name = false) :
    .block 1 (Placed.withAtSign (Text.trim mark.name)) ∈ passages model c artifact := by
  have htext := mem_annotationsAt hmark henabled hblank
  cases hlocation : mark.location with
  | property =>
    rw [hlocation] at htext
    apply mem_passages_of_field hmem
    simp [fieldPassages, htext]
  | getter =>
    rw [hlocation] at htext
    apply mem_passages_of_accessor hmem
    left
    simp [getterPassages, htext]
  | setter =>
    rw [hlocation] at htext
    apply mem_passages_of_accessor hmem
    right
    simp [setterPassages, htext]

end Fields

theorem mem_passages_of_body (signature : String) {method : Option (List Statement)}
    (hpart : methodPassages signature method ∈ sectionPassages model c artifact)
    {body : List Statement} (hbody : body ∈ method) :
    .block 2 (bodyText body) ∈ passages model c artifact := by
  refine mem_passages_of_section hpart ?_
  rw [Option.mem_def.mp hbody]
  simp [methodPassages]

/-- The passages hold everything. -/
theorem holdsEverything (h : TakenFrom model options c artifact) :
    HoldsEverything model c artifact (passages model c artifact) where
  classCode _ hs henabled hblank himport := mem_passages_of_classCode hs henabled hblank himport
  classAnnotations a ha henabled hblank := by
    have htext := mem_annotationsAt ha henabled hblank
    cases hlocation : a.location with
    | type =>
      rw [hlocation] at htext
      simp [passages, preamblePassages, htext]
  attributeCode a ha _ hs henabled hblank himport := by
    obtain ⟨f, hf⟩ := exists_mem_zip_of_forall₂ h.fields ha
    exact mem_passages_of_attributeCode hf hs henabled hblank himport
  attributeAnnotations a ha _ hmark henabled hblank := by
    obtain ⟨f, hf⟩ := exists_mem_zip_of_forall₂ h.fields ha
    exact mem_passages_of_attributeAnnotation hf hmark henabled hblank
  constructors k hk := by
    have hpart : [Passage.block 1 (k.signature artifact.name).text]
        ∈ sectionPassages model c artifact := by
      simp only [sectionPassages, List.mem_append]
      refine Or.inl (Or.inl (Or.inl (Or.inl (Or.inl (Or.inr ?_)))))
      exact List.mem_map_of_mem hk
    exact mem_passages_of_section hpart List.mem_cons_self
  equalsBody _ hbody :=
    mem_passages_of_body "public boolean equals(Object obj)" (by simp [sectionPassages]) hbody
  hashCodeBody _ hbody :=
    mem_passages_of_body "public int hashCode()" (by simp [sectionPassages]) hbody
  toStringBody _ hbody :=
    mem_passages_of_body "public String toString()" (by simp [sectionPassages]) hbody

end Class

/-- An assembled class is taken from the metamodel. -/
theorem takenFrom_of_assemble_eq_ok {σ : Type} [PrimeSource σ] {model : Metamodel}
    {options : GenerationOptions} {c : ClassModel} {primes primes' : σ} {artifact : JavaClass}
    (h : assemble model options c primes = (.ok artifact, primes')) :
    TakenFrom model options c artifact := by
  obtain ⟨parts, pair, -, hfinish⟩ := exists_parts_of_assemble_eq_ok h
  obtain ⟨_, _, -, -, rfl⟩ := Draft.exists_methods_of_finish hfinish
  exact ⟨rfl, rfl, parts.ofAttribute_fields⟩

/-- **Rendering loses nothing.** In the source of a class that can be assembled, cut at its line feeds, all passages of
the class occur one after the other, each in one piece: what is written by hand for the class and for its attributes, the
constructors and the bodies of methods, and between them the package, the imports, the line that opens the class, the
fields with their accessors, the methods for listeners and the closing brace. Each attribute has a field of its own. -/
theorem source_renders_everything {σ : Type} [PrimeSource σ] {model : Metamodel}
    {options : GenerationOptions} {c : ClassModel} {primes primes' : σ} {artifact : JavaClass}
    (h : assemble model options c primes = (.ok artifact, primes')) :
    List.Forall₂ (fun a f => JavaField.ofAttribute options c a = .ok f) c.attributes artifact.fields
      ∧ HoldsEverything model c artifact (passages model c artifact)
      ∧ InOrder ((passages model c artifact).map Passage.rows) (Text.cutLines artifact.source) := by
  have htaken := takenFrom_of_assemble_eq_ok h
  refine ⟨htaken.fields, holdsEverything htaken, ?_⟩
  have hlines : artifact.lines ≠ [] := by simp [JavaClass.lines]
  have hrows : (passages model c artifact).map Passage.rows
      = ((passages model c artifact).map Passage.written).map (·.flatMap Text.cutLines) := by
    rw [List.map_map]
    exact List.map_congr_left fun p _ => (p.flatMap_cutLines_written).symm
  rw [hrows, JavaClass.source, Text.cutLines_unlines hlines,
    ← List.append_nil (((passages model c artifact).map Passage.written).map _)]
  exact ((renders_lines htaken).flatMap Text.cutLines).append (.nil [""])

/-- An attribute whose getter starts with code of three lines, the second of them empty. -/
def auditedLabel : Attribute :=
  { Attribute.plain "label" "String" with
    snippets := [.of "audit();\n\nlog();" .preGetter]
    runtimeAnnotations := [.of " Lazy " .getter] }

/-- A class with that attribute, under a comment that all classes share. -/
def auditedTag : ClassModel :=
  { ClassModel.empty "Tag" .embeddable with attributes := [auditedLabel] }

def auditedModel : Metamodel :=
  { Metamodel.empty "shop" with
    snippets := [.of "// shared" .beforeClass]
    classes := [auditedTag] }

/-- The code of the getter is moved in twice, but for its empty line, and the annotation gets its at sign. -/
theorem source_renders_auditedTag :
    ∃ (artifact : JavaClass) (primes : PrimeSupply),
      assemble auditedModel .standard auditedTag (PrimeSupply.fixed .standard) = (.ok artifact, primes)
        ∧ .block 0 "// shared" ∈ passages auditedModel auditedTag artifact
        ∧ .block 1 "@Lazy" ∈ passages auditedModel auditedTag artifact
        ∧ .block 2 "audit();\n\nlog();" ∈ passages auditedModel auditedTag artifact
        ∧ (Passage.block 2 "audit();\n\nlog();").rows = ["        audit();", "", "        log();"]
        ∧ InOrder ((passages auditedModel auditedTag artifact).map Passage.rows)
          (Text.cutLines artifact.source) := by
  have hsuccess : (assemble auditedModel .standard auditedTag
      (PrimeSupply.fixed .standard)).1.toOption.isSome = true := by
    decide +kernel
  rcases hassemble : assemble auditedModel .standard auditedTag (PrimeSupply.fixed .standard) with
    ⟨result, primes⟩
  rw [hassemble, Option.isSome_iff_exists] at hsuccess
  obtain ⟨artifact, hartifact⟩ := hsuccess
  obtain rfl := toOption_eq_some_iff.mp hartifact
  obtain ⟨-, hall, horder⟩ := source_renders_everything hassemble
  refine ⟨artifact, primes, rfl, ?_, ?_, ?_, by decide +kernel, horder⟩
  · exact hall.classCode (.of "// shared" .beforeClass) (by decide) rfl (by decide) (by decide)
  · exact hall.attributeAnnotations auditedLabel (by decide) (.of " Lazy " .getter)
      (by decide) rfl (by decide)
  · exact hall.attributeCode auditedLabel (by decide) (.of "audit();\n\nlog();" .preGetter)
      (by decide) rfl (by decide) (by decide)

end EntityForge
