import EntityForge.Proofs.ImportClosure
import EntityForge.Proofs.MemoFreeAssembly
import EntityForge.Proofs.TypeTokens

/-!
# Constraints inside types

Constraints on keys and on values are annotations inside the type of a field: on keys before the first argument, on
values before the last one. A type with constraints is put together anew, of its raw type and its arguments. What stands
behind the arguments, such as the brackets of an array, is not put back; and where there are more than two arguments the
constraints are left out.

Main statements: `constrained_type_is_kept_iff`, about the type, and `type_constraints_are_written_iff`, about the
constraints.
-/

namespace EntityForge

open Java Layout

/-! ## Erasing pieces of a text -/

/-- Erasing the pieces from the text, one behind the other, leaves the rest. -/
inductive Erases : List (List Char) → List Char → List Char → Prop
  | nil : Erases [] [] []
  | keep {pieces : List (List Char)} {text rest : List Char} (c : Char) (h : Erases pieces text rest) :
      Erases pieces (c :: text) (c :: rest)
  | erase {pieces : List (List Char)} {text rest : List Char} (piece : List Char) (h : Erases pieces text rest) :
      Erases (piece :: pieces) (piece ++ text) rest

namespace Erases

variable {pieces pieces' : List (List Char)} {text text' rest rest' : List Char}

theorem refl (text : List Char) : Erases [] text text := by
  induction text with
  | nil => exact .nil
  | cons c text ih => exact .keep c ih

theorem append (h : Erases pieces text rest) (h' : Erases pieces' text' rest') :
    Erases (pieces ++ pieces') (text ++ text') (rest ++ rest') := by
  induction h with
  | nil => exact h'
  | keep c _ ih => exact .keep c ih
  | erase piece _ ih =>
    rw [List.append_assoc]
    exact .erase piece ih

/-- No character is lost but those of the pieces. -/
theorem countP_eq (h : Erases pieces text rest) (p : Char → Bool) :
    text.countP p = pieces.flatten.countP p + rest.countP p := by
  induction h with
  | nil => rfl
  | keep c _ ih =>
    rw [List.countP_cons, List.countP_cons, ih]
    omega
  | erase piece _ ih =>
    rw [List.countP_append, List.flatten_cons, List.countP_append, ih]
    omega

end Erases

/-- Erasing the pieces from what is written leaves the type, up to white space. -/
def ErasesTo (pieces : List String) (written type : String) : Prop :=
  ∃ rest, Erases (pieces.map String.toList) written.toList rest ∧ typeTokens rest = typeTokens type.toList

/-! ## Types with annotations -/

/-- A type argument with annotations before it. -/
def annotatedArgument (place : List String × String) : String :=
  " ".intercalate (place.1 ++ [place.2])

/-- A parameterized type with annotations before its arguments. -/
def annotatedType (raw : String) (places : List (List String × String)) : String :=
  raw ++ "<" ++ ", ".intercalate (places.map annotatedArgument) ++ ">"

/-- Annotations of keys before the first argument, and of values before the last one. -/
def placed (keys values : List String) : List String → List (List String × String)
  | [] => []
  | [value] => [(keys ++ values, value)]
  | key :: next :: rest => (keys, key) :: placed [] values (next :: rest)

theorem map_snd_placed (keys values arguments : List String) :
    (placed keys values arguments).map (·.2) = arguments := by
  fun_induction placed keys values arguments with
  | case1 => rfl
  | case2 => rfl
  | case3 keys key next rest ih => rw [List.map_cons, ih]

/-- All annotations have a place when there is an argument, and stand in their order. -/
theorem flatMap_fst_placed (keys values : List String) {arguments : List String} (h : arguments ≠ []) :
    (placed keys values arguments).flatMap (·.1) = keys ++ values := by
  fun_induction placed keys values arguments with
  | case1 => exact absurd rfl h
  | case2 keys value => simp
  | case3 keys key next rest ih => rw [List.flatMap_cons, ih (by simp), List.nil_append]

/-- Without annotations the arguments stay as they are. -/
theorem map_annotatedArgument_placed_nil (arguments : List String) :
    (placed [] [] arguments).map annotatedArgument = arguments := by
  induction arguments with
  | nil => rfl
  | cons first rest ih =>
    cases rest with
    | nil => simp [placed, annotatedArgument]
    | cons next rest =>
      rw [placed, List.map_cons, ih]
      simp [annotatedArgument]

/-- Erasing the annotations before an argument leaves it behind white space. -/
theorem exists_erased_annotatedArgument (annotations : List String) (argument : String) :
    ∃ rest, Erases (annotations.map String.toList) (annotatedArgument (annotations, argument)).toList rest
      ∧ typeTokens rest = typeTokens argument.toList := by
  induction annotations with
  | nil => exact ⟨argument.toList, by simpa [annotatedArgument] using Erases.refl argument.toList, rfl⟩
  | cons first annotations ih =>
    obtain ⟨rest, herases, htokens⟩ := ih
    -- The blank behind an annotation is not erased with it.
    refine ⟨' ' :: rest, ?_, ?_⟩
    · have hcons : (annotatedArgument (first :: annotations, argument)).toList
          = first.toList ++ ' ' :: (annotatedArgument (annotations, argument)).toList := by
        rw [annotatedArgument, annotatedArgument, List.cons_append, String.intercalate_cons_of_ne_nil (by simp)]
        simp
      rw [hcons, List.map_cons]
      exact .erase _ (.keep ' ' herases)
    · rw [typeTokens_blank_cons, htokens]

/-- Erasing the annotations before all arguments leaves the arguments. -/
theorem exists_erased_arguments (places : List (List String × String)) :
    ∃ rest, Erases ((places.flatMap (·.1)).map String.toList)
        (", ".intercalate (places.map annotatedArgument)).toList rest
      ∧ typeTokens rest = [[',']].intercalate (places.map fun place => typeTokens place.2.toList) := by
  induction places with
  | nil => exact ⟨[], .nil, rfl⟩
  | cons place places ih =>
    obtain ⟨first, hfirst, hfirstTokens⟩ := exists_erased_annotatedArgument place.1 place.2
    cases places with
    | nil => exact ⟨first, by simpa using hfirst, by simpa using hfirstTokens⟩
    | cons next others =>
      obtain ⟨rest, hrest, hrestTokens⟩ := ih
      refine ⟨first ++ ',' :: ' ' :: rest, ?_, ?_⟩
      · rw [List.map_cons, String.intercalate_cons_of_ne_nil (by simp), List.flatMap_cons, List.map_append]
        have hjoined := hfirst.append (.keep ',' (.keep ' ' hrest))
        simpa using hjoined
      · rw [typeTokens_mark (by decide), typeTokens_blank_cons, hfirstTokens, hrestTokens, List.map_cons, List.map_cons,
          List.map_cons, List.intercalate_cons_cons, List.append_assoc, List.singleton_append]

/-- Erasing the annotations of a type leaves its raw type and its arguments. -/
theorem exists_erased_annotatedType (raw : String) (places : List (List String × String)) :
    ∃ rest, Erases ((places.flatMap (·.1)).map String.toList) (annotatedType raw places).toList rest
      ∧ typeTokens rest = parameterizedTokens raw (places.map (·.2)) := by
  obtain ⟨inner, hinner, htokens⟩ := exists_erased_arguments places
  refine ⟨raw.toList ++ '<' :: (inner ++ ['>']), ?_, ?_⟩
  · have hwhole := (Erases.refl raw.toList).append (.keep '<' (hinner.append (.refl ['>'])))
    simpa [annotatedType] using hwhole
  · rw [typeTokens_mark (by decide), typeTokens_mark (by decide), htokens, parameterizedTokens]
    simp [typeTokens, typeTokensFrom, endedWord, Function.comp_def]

/-- Erasing the annotations that have their places leaves the raw type and the arguments. -/
theorem exists_erased_placed (raw : String) (keys values : List String) {arguments : List String} (h : arguments ≠ []) :
    ∃ rest, Erases ((keys ++ values).map String.toList) (annotatedType raw (placed keys values arguments)).toList rest
      ∧ typeTokens rest = parameterizedTokens raw arguments := by
  have herased := exists_erased_annotatedType raw (placed keys values arguments)
  rwa [flatMap_fst_placed keys values h, map_snd_placed] at herased

/-! ## Counting what is written -/

/-- The tokens together are as long as what is written beside white space. -/
theorem length_flatten_typeTokens (cs : List Char) :
    (typeTokens cs).flatten.length = cs.countP (!Text.isSpace ·) := by
  rw [flatten_typeTokens, List.countP_eq_length_filter]

/-- What is written of an annotated type beside white space is in its annotations, its raw type and its arguments. -/
theorem countP_placed (raw : String) (keys values : List String) {arguments : List String} (h : arguments ≠ []) :
    (annotatedType raw (placed keys values arguments)).toList.countP (!Text.isSpace ·)
      = ((keys ++ values).map String.toList).flatten.countP (!Text.isSpace ·)
        + (parameterizedTokens raw arguments).flatten.length := by
  obtain ⟨rest, herases, htokens⟩ := exists_erased_placed raw keys values h
  rw [herases.countP_eq, ← htokens, length_flatten_typeTokens]

/-! ## The type of a field -/

/-- An annotation begins with its sign, which is not white space. -/
theorem countP_texts_pos {uses : List AnnotationUse} (h : uses ≠ []) :
    0 < ((uses.map (·.text)).map String.toList).flatten.countP (!Text.isSpace ·) := by
  obtain ⟨use, others, rfl⟩ := List.exists_cons_of_ne_nil h
  have hsign : '@' ∈ use.text.toList := by
    rw [AnnotationUse.text]
    split <;> simp
  rw [List.countP_pos_iff]
  exact ⟨'@', by simp [hsign], by decide⟩

namespace JavaField

variable {options : GenerationOptions} {c : ClassModel} {a : Attribute} {f : JavaField}

/-- There are constraints on keys or on values. -/
def IsConstrained (f : JavaField) : Prop :=
  f.keyConstraints ≠ [] ∨ f.valueConstraints ≠ []

instance (f : JavaField) : Decidable f.IsConstrained :=
  inferInstanceAs (Decidable (_ ∨ _))

/-- The constraints on keys, as they are written. -/
def keyTexts (f : JavaField) : List String :=
  f.keyConstraints.map (·.text)

/-- The constraints on values, as they are written. -/
def valueTexts (f : JavaField) : List String :=
  f.valueConstraints.map (·.text)

/-- The constraints that are written in the type: all of them, unless there are more than two arguments. -/
def writtenConstraints (f : JavaField) : List String :=
  if typeArity f.type ≤ 2 then f.keyTexts ++ f.valueTexts else []

/-- Constraints on keys are accepted for types with two arguments, and constraints on values for types with any. -/
theorem arity_of_ofAttribute_eq_ok (h : ofAttribute options c a = .ok f) :
    (f.keyConstraints ≠ [] → typeArity f.type = 2) ∧ (f.valueConstraints ≠ [] → typeArity f.type ≠ 0) := by
  unfold ofAttribute at h
  obtain ⟨persistence, -, h⟩ := bind_eq_ok_iff.mp h
  obtain ⟨constraints, -, h⟩ := bind_eq_ok_iff.mp h
  obtain ⟨keyConstraints, -, h⟩ := bind_eq_ok_iff.mp h
  obtain ⟨valueConstraints, -, h⟩ := bind_eq_ok_iff.mp h
  simp only at h
  split at h
  · exact absurd h (by simp)
  · next hkeys =>
    split at h
    · exact absurd h (by simp)
    · next hvalues =>
      obtain rfl := Except.ok.inj h
      exact ⟨by simpa [plain] using hkeys, by simpa [plain] using hvalues⟩

/-- The type of a constrained field has arguments, and two of them where keys are constrained. -/
theorem exists_arguments_of_isConstrained (h : ofAttribute options c a = .ok f) (hf : f.IsConstrained) :
    ∃ raw arguments, typeArguments? f.type = some (raw, arguments) ∧ typeArity f.type = arguments.length
      ∧ arguments ≠ [] ∧ (f.keyConstraints ≠ [] → arguments.length = 2) := by
  obtain ⟨hkeys, hvalues⟩ := arity_of_ofAttribute_eq_ok h
  have hsome : typeArity f.type ≠ 0 := by
    rcases hf with hf | hf
    · rw [hkeys hf]
      decide
    · exact hvalues hf
  cases harguments : typeArguments? f.type with
  | none => exact absurd (by rw [typeArity, harguments]) hsome
  | some found =>
    obtain ⟨raw, arguments⟩ := found
    have harity : typeArity f.type = arguments.length := by rw [typeArity, harguments]
    rw [harity] at hkeys hsome
    exact ⟨raw, arguments, rfl, harity, List.ne_nil_of_length_pos (Nat.pos_of_ne_zero hsome), hkeys⟩

/-- The type of a constrained field, as it is declared: its constraints stand before its first and its last argument, or
nowhere when there are more than two. -/
theorem declaredType_eq {raw : String} {arguments : List String} (hf : f.IsConstrained)
    (htype : typeArguments? f.type = some (raw, arguments)) (hne : arguments ≠ [])
    (hkeys : f.keyConstraints ≠ [] → arguments.length = 2) :
    f.declaredType = annotatedType raw
      (if arguments.length ≤ 2 then placed f.keyTexts f.valueTexts arguments else placed [] [] arguments) := by
  have hconstrained : ¬(f.keyConstraints.isEmpty && f.valueConstraints.isEmpty) = true := by
    simpa [IsConstrained, Decidable.or_iff_not_imp_left] using hf
  rw [declaredType, if_neg hconstrained, htype, annotatedType]
  match arguments with
  | [] => exact absurd rfl hne
  | [value] =>
    have hnone : f.keyConstraints = [] := by
      by_contra hsome
      exact absurd (hkeys hsome) (by simp)
    simp [placed, annotatedArgument, constrained, keyTexts, valueTexts, hnone]
  | [key, value] => simp [placed, annotatedArgument, constrained, keyTexts, valueTexts]
  | first :: second :: third :: rest =>
    rw [if_neg (by simp), map_annotatedArgument_placed_nil]

/-- What stands behind the last angle bracket of the type, where there are constraints. -/
def droppedTokens (f : JavaField) : List (List Char) :=
  if f.IsConstrained then typeTokens (Text.afterLast '>' f.type).toList else []

theorem droppedTokens_eq_nil_iff :
    f.droppedTokens = [] ↔ (f.IsConstrained → Text.isBlank (Text.afterLast '>' f.type) = true) := by
  rw [droppedTokens, Text.isBlank, ← typeTokens_eq_nil_iff]
  split
  · next hf => simp [hf]
  · next hf => simp [hf]

/-- Erasing the constraints from the declared type leaves the type of the attribute, but for what is dropped. -/
theorem exists_erased_declaredType (h : ofAttribute options c a = .ok f) :
    ∃ rest, Erases (f.writtenConstraints.map String.toList) f.declaredType.toList rest
      ∧ typeTokens f.type.toList = typeTokens rest ++ f.droppedTokens := by
  by_cases hf : f.IsConstrained
  · obtain ⟨raw, arguments, htype, harity, hne, hkeys⟩ := exists_arguments_of_isConstrained h hf
    rw [declaredType_eq hf htype hne hkeys, writtenConstraints, harity, droppedTokens, if_pos hf,
      typeTokens_of_typeArguments?_eq_some htype]
    split
    · obtain ⟨rest, herases, htokens⟩ := exists_erased_placed raw f.keyTexts f.valueTexts hne
      exact ⟨rest, herases, by rw [htokens]⟩
    · obtain ⟨rest, herases, htokens⟩ := exists_erased_placed raw [] [] hne
      exact ⟨rest, herases, by rw [htokens]⟩
  · obtain ⟨hkeys, hvalues⟩ : f.keyConstraints = [] ∧ f.valueConstraints = [] := by
      simpa [IsConstrained, not_or] using hf
    have hwritten : f.writtenConstraints = [] := by simp [writtenConstraints, keyTexts, valueTexts, hkeys, hvalues]
    have hsame : f.declaredType = f.type := by simp [declaredType, hkeys, hvalues]
    refine ⟨f.type.toList, ?_, ?_⟩
    · rw [hwritten, hsame]
      exact .refl _
    · rw [droppedTokens, if_neg hf, List.append_nil]

/-- The type of the attribute is left exactly when nothing is dropped. -/
theorem erasesTo_type_iff (h : ofAttribute options c a = .ok f) :
    ErasesTo f.writtenConstraints f.declaredType f.type ↔ f.droppedTokens = [] := by
  obtain ⟨rest, herases, htokens⟩ := exists_erased_declaredType h
  constructor
  · rintro ⟨other, hother, hsame⟩
    -- Erasing the same pieces leaves as much, wherever they are erased; so the type has no more than is left.
    have hcount := hother.countP_eq (!Text.isSpace ·)
    rw [herases.countP_eq, ← length_flatten_typeTokens rest, ← length_flatten_typeTokens other, hsame, htokens,
      List.flatten_append, List.length_append] at hcount
    have hnone : f.droppedTokens.flatten = [] := List.eq_nil_of_length_eq_zero (by omega)
    rw [droppedTokens] at hnone ⊢
    split
    · next hf =>
      rw [if_pos hf, flatten_typeTokens, List.filter_eq_nil_iff] at hnone
      rw [typeTokens_eq_nil_iff]
      simpa using hnone
    · rfl
  · intro hnone
    rw [hnone, List.append_nil] at htokens
    exact ⟨rest, herases, htokens.symm⟩

end JavaField

/-! ## Fields of assembled classes -/

namespace JavaField

/-- The declaration of a field is one of its lines, and the line that opens its getter as well. -/
theorem declaration_mem (f : JavaField) : indent 1 f.declaration ∈ f.fieldLines := by
  simp [fieldLines]

/-- The line that opens the getter. -/
def getterSignature (f : JavaField) : String :=
  indent 1 ("public " ++ f.type ++ " " ++ f.getterName ++ "() \x7b")

theorem getterSignature_mem (f : JavaField) : f.getterSignature ∈ f.getterLines := by
  simp [getterLines, getterSignature]

end JavaField

namespace JavaClass

variable {c : JavaClass} {f : JavaField}

/-- The declarations of all fields are lines of the class. -/
theorem declaration_mem_lines (hf : f ∈ c.fields) : indent 1 f.declaration ∈ c.lines := by
  have hfields : indent 1 f.declaration ∈ joinSections (c.fields.map (·.fieldLines)) :=
    (inOrder_joinSections _).mem (List.mem_map_of_mem hf) f.declaration_mem
  have hsection : indent 1 f.declaration ∈ c.fieldSection := by simp [fieldSection, hfields]
  exact mem_lines_of_section hsection (by simp [sections])

/-- The getters of all fields are in the class. -/
theorem getterSignature_mem_lines (hf : f ∈ c.fields) : f.getterSignature ∈ c.lines := by
  have haccessors : f.getterLines ∈ c.fields.flatMap fun f => [f.getterLines, f.setterLines] :=
    List.mem_flatMap.mpr ⟨f, hf, by simp⟩
  refine mem_lines_of_section f.getterSignature_mem ?_
  simp only [sections, List.mem_append]
  exact .inl (.inl (.inl (.inr haccessors)))

end JavaClass

/-- The lines about a field and the constructors that assign it say its type; its declaration says the declared one. -/
structure ShowsType (artifact : JavaClass) (f : JavaField) (type : String) : Prop where
  declaration : ∃ initial : String,
    indent 1 (f.access.modifier ++ f.declaredType ++ " " ++ f.name ++ initial ++ ";") ∈ artifact.lines
  getter : indent 1 ("public " ++ type ++ " " ++ f.getterName ++ "() \x7b") ∈ artifact.lines
  setter : indent 1 ("public void " ++ f.setterName ++ "(" ++ type ++ " " ++ f.name ++ ")" ++ f.throwsClause ++ " \x7b")
    ∈ artifact.lines
  parameters : ∀ k ∈ artifact.constructors, ∀ p ∈ (k.signature artifact.name).own, p.name = f.name → p.type = type

section Assembled

variable {σ : Type} [PrimeSource σ] {model : Metamodel} {options : GenerationOptions} {c : ClassModel}
  {primes primes' : σ} {artifact : JavaClass}

/-- The fields and the parameters of an assembled class fit together. -/
theorem fieldsFit_of_assemble_eq_ok (h : assemble model options c primes = (.ok artifact, primes')) :
    FieldsFit options c artifact := by
  obtain ⟨parts, _, -, hfinish⟩ := exists_parts_of_assemble_eq_ok h
  obtain ⟨_, _, -, -, rfl⟩ := Draft.exists_methods_of_finish hfinish
  have hfit := parts.fieldsFit
  exact ⟨hfit.fields, hfit.distinct, hfit.own, hfit.inherited⟩

/-- Each field is that of an attribute. -/
theorem FieldsFit.exists_attribute (h : FieldsFit options c artifact) {f : JavaField} (hf : f ∈ artifact.fields) :
    ∃ a ∈ c.attributes, JavaField.ofAttribute options c a = .ok f := by
  obtain ⟨a, ha, hfield, -⟩ := exists_mem_right_of_forall₂ h.fields.flip hf
  exact ⟨a, ha, hfield⟩

/-- The type that the lines about a field say is its own. -/
theorem FieldsFit.showsType (h : FieldsFit options c artifact) {f : JavaField} (hf : f ∈ artifact.fields) :
    ShowsType artifact f f.type where
  declaration := ⟨_, JavaClass.declaration_mem_lines hf⟩
  getter := JavaClass.getterSignature_mem_lines hf
  setter := JavaClass.changeCode_rendered.2 f hf
  parameters k hk p hp hname := by
    obtain ⟨g, hg, rfl⟩ := List.mem_map.mp hp
    have hassigned := h.own k hk g hg
    have hdeclared := (find?_eq_some_iff_of_nodup h.distinct).mpr ⟨hf, rfl⟩
    rw [show g.name = f.name from hname, hdeclared, Option.some.injEq] at hassigned
    rw [hassigned]

/-- **The type of a constrained field.** For each field of an assembled class, and its attribute: the getter, the setter
and the constructors say the type of the attribute, and the declaration says a type that has the constraints inside.
Erasing these leaves the type of the attribute without what stands behind its last angle bracket; so it leaves the type,
up to white space, exactly when there are no constraints on keys and values or nothing stands there. -/
theorem constrained_type_is_kept_iff (h : assemble model options c primes = (.ok artifact, primes')) :
    ∀ f ∈ artifact.fields, ∃ a ∈ c.attributes, f.name = a.name ∧ f.type = a.dataType ∧ ShowsType artifact f a.dataType
      ∧ (∃ rest, Erases (f.writtenConstraints.map String.toList) f.declaredType.toList rest
        ∧ typeTokens a.dataType.toList = typeTokens rest ++ f.droppedTokens)
      ∧ (ErasesTo f.writtenConstraints f.declaredType a.dataType
        ↔ (f.IsConstrained → Text.isBlank (Text.afterLast '>' a.dataType) = true)) := by
  intro f hf
  have hfit := fieldsFit_of_assemble_eq_ok h
  obtain ⟨a, ha, hfield⟩ := hfit.exists_attribute hf
  obtain ⟨hname, htype, -⟩ := JavaField.eq_of_ofAttribute_eq_ok hfield
  have hkept := (JavaField.erasesTo_type_iff hfield).trans JavaField.droppedTokens_eq_nil_iff
  have herased := JavaField.exists_erased_declaredType hfield
  have hshows := hfit.showsType hf
  rw [htype] at hkept herased hshows
  exact ⟨a, ha, hname, htype, hshows, herased, hkept⟩

end Assembled

/-- An order with labels whose type has constraints inside. -/
def labelledOrder (type : String) (keys values : List Marker) : ClassModel :=
  let constraints (markers : List Marker) : List Constraint := markers.map fun marker => .of (.marker marker)
  { ClassModel.empty "Order" .bean with
    attributes :=
      [{ Attribute.plain "labels" type with
        keyConstraints := constraints keys, valueConstraints := constraints values }] }

/-- Erasing the constraints on keys and on values leaves a map of lists. -/
theorem constrained_type_is_kept_map :
    ∃ (artifact : JavaClass) (primes : PrimeSupply) (f : JavaField),
      assemble (Metamodel.empty "shop") .standard
          (labelledOrder "java.util.Map<String,java.util.List<Long>>" [.notBlank] [.notNull])
          (PrimeSupply.fixed .standard) = (.ok artifact, primes)
        ∧ artifact.fields = [f]
        ∧ f.declaredType = "java.util.Map<@NotBlank String, @NotNull java.util.List<Long>>"
        ∧ ErasesTo ["@NotBlank", "@NotNull"] f.declaredType "java.util.Map<String,java.util.List<Long>>" := by
  obtain ⟨artifact, primes, hassemble, hsummary⟩ :=
    exists_ok_of_summary
      (assemble (Metamodel.empty "shop") .standard
        (labelledOrder "java.util.Map<String,java.util.List<Long>>" [.notBlank] [.notNull])
        (PrimeSupply.fixed .standard))
      (fun artifact => artifact.fields.map fun f => (f.type, f.declaredType, f.writtenConstraints))
      (b := [("java.util.Map<String,java.util.List<Long>>",
        "java.util.Map<@NotBlank String, @NotNull java.util.List<Long>>", ["@NotBlank", "@NotNull"])])
      (by decide +kernel)
  obtain ⟨f, hfields, hf⟩ := List.map_eq_singleton_iff.mp hsummary
  simp only [Prod.mk.injEq] at hf
  obtain ⟨htype, hdeclared, hwritten⟩ := hf
  obtain ⟨a, -, -, hsame, -, -, hkept⟩ := constrained_type_is_kept_iff hassemble f (by simp [hfields])
  rw [← hsame, htype, hwritten] at hkept
  exact ⟨artifact, primes, f, hassemble, hfields, hdeclared, hkept.mpr fun _ => by decide⟩

/-- The brackets of an array of lists are not in its declaration, whatever is erased from it; the getter has them. -/
theorem constrained_array_loses_brackets :
    ∃ (artifact : JavaClass) (primes : PrimeSupply) (f : JavaField),
      assemble (Metamodel.empty "shop") .standard (labelledOrder "java.util.List<String>[]" [] [.notBlank])
          (PrimeSupply.fixed .standard) = (.ok artifact, primes)
        ∧ artifact.fields = [f]
        ∧ f.type = "java.util.List<String>[]"
        ∧ f.declaredType = "java.util.List<@NotBlank String>"
        ∧ "    private java.util.List<@NotBlank String> labels;" ∈ artifact.lines
        ∧ "    public java.util.List<String>[] getLabels() \x7b" ∈ artifact.lines
        ∧ ¬ErasesTo ["@NotBlank"] f.declaredType "java.util.List<String>[]" := by
  obtain ⟨artifact, primes, hassemble, hsummary⟩ :=
    exists_ok_of_summary
      (assemble (Metamodel.empty "shop") .standard (labelledOrder "java.util.List<String>[]" [] [.notBlank])
        (PrimeSupply.fixed .standard))
      (fun artifact => artifact.fields.map fun f =>
        (f.type, f.declaredType, f.writtenConstraints, indent 1 f.declaration, f.getterSignature))
      (b := [("java.util.List<String>[]", "java.util.List<@NotBlank String>", ["@NotBlank"],
        "    private java.util.List<@NotBlank String> labels;",
        "    public java.util.List<String>[] getLabels() \x7b")])
      (by decide +kernel)
  obtain ⟨f, hfields, hf⟩ := List.map_eq_singleton_iff.mp hsummary
  simp only [Prod.mk.injEq] at hf
  obtain ⟨htype, hdeclared, hwritten, hdeclaration, hgetter⟩ := hf
  have hmem : f ∈ artifact.fields := by simp [hfields]
  obtain ⟨a, -, hfield⟩ := (fieldsFit_of_assemble_eq_ok hassemble).exists_attribute hmem
  have hconstrained : f.IsConstrained := by
    by_contra hfree
    simp only [JavaField.IsConstrained, ne_eq, not_or, not_not] at hfree
    simp [JavaField.writtenConstraints, JavaField.keyTexts, JavaField.valueTexts, hfree] at hwritten
  have hkept := (JavaField.erasesTo_type_iff hfield).trans JavaField.droppedTokens_eq_nil_iff
  rw [hwritten, htype] at hkept
  have hbrackets : ¬Text.isBlank (Text.afterLast '>' "java.util.List<String>[]") = true := by decide
  exact ⟨artifact, primes, f, hassemble, hfields, htype, hdeclared, hdeclaration ▸ JavaClass.declaration_mem_lines hmem,
    hgetter ▸ JavaClass.getterSignature_mem_lines hmem, fun herased => hbrackets (hkept.mp herased hconstrained)⟩

section Assembled

variable {σ : Type} [PrimeSource σ] {model : Metamodel} {options : GenerationOptions} {c : ClassModel}
  {primes primes' : σ} {artifact : JavaClass}

/-- **Where the constraints of a type are written.** The type of a constrained field of an assembled class is
parameterized, with two arguments where keys are constrained. Its declaration has the constraints on keys before the
first argument and those on values before the last one, each group in its order, exactly when there are no constraints
on values or at most two arguments. With more arguments it has none of them. -/
theorem type_constraints_are_written_iff (h : assemble model options c primes = (.ok artifact, primes')) :
    ∀ f ∈ artifact.fields, f.IsConstrained →
      ∃ raw arguments, typeArguments? f.type = some (raw, arguments)
        ∧ arguments ≠ [] ∧ (f.keyConstraints ≠ [] → arguments.length = 2)
        ∧ (f.declaredType = annotatedType raw (placed f.keyTexts f.valueTexts arguments)
          ↔ f.valueConstraints = [] ∨ arguments.length ≤ 2)
        ∧ (2 < arguments.length → f.declaredType = annotatedType raw (placed [] [] arguments))
        ∧ ∃ initial : String,
          indent 1 (f.access.modifier ++ f.declaredType ++ " " ++ f.name ++ initial ++ ";") ∈ artifact.lines := by
  intro f hf hconstrained
  have hfit := fieldsFit_of_assemble_eq_ok h
  obtain ⟨a, -, hfield⟩ := hfit.exists_attribute hf
  obtain ⟨raw, arguments, htype, -, hne, hkeys⟩ :=
    JavaField.exists_arguments_of_isConstrained hfield hconstrained
  have hdeclared := JavaField.declaredType_eq hconstrained htype hne hkeys
  have hmany : 2 < arguments.length → f.declaredType = annotatedType raw (placed [] [] arguments) := by
    intro hlong
    rw [hdeclared, if_neg (by omega)]
  have hline := (hfit.showsType hf).declaration
  refine ⟨raw, arguments, htype, hne, hkeys, ⟨fun hplaced => ?_, fun hfew => ?_⟩, hmany, hline⟩
  · by_contra hlost
    rw [not_or, Nat.not_le] at hlost
    -- Written with its constraints, the type would be longer than it is without them.
    have hbare := hplaced.symm.trans (hmany hlost.2)
    have hwritten := congrArg (fun type => type.toList.countP (!Text.isSpace ·)) hbare
    have hvalues : 0 < (f.valueTexts.map String.toList).flatten.countP (!Text.isSpace ·) :=
      countP_texts_pos hlost.1
    simp only [countP_placed _ _ _ hne, List.map_append, List.flatten_append, List.countP_append, List.append_nil,
      List.map_nil, List.flatten_nil, List.countP_nil] at hwritten
    omega
  · have hshort : arguments.length ≤ 2 := by
      rcases hfew with hnone | hshort
      · have hsome := hconstrained.resolve_right (· hnone)
        exact Nat.le_of_eq (hkeys hsome)
      · exact hshort
    rw [hdeclared, if_pos hshort]

end Assembled

/-- The constraints of a map stand before its two arguments. -/
theorem type_constraints_are_written_map :
    ∃ (artifact : JavaClass) (primes : PrimeSupply) (f : JavaField),
      assemble (Metamodel.empty "shop") .standard (labelledOrder "Map<String, Long>" [.notBlank] [.notNull, .positive])
          (PrimeSupply.fixed .standard) = (.ok artifact, primes)
        ∧ artifact.fields = [f]
        ∧ f.IsConstrained
        ∧ f.declaredType = annotatedType "Map" [(["@NotBlank"], "String"), (["@NotNull", "@Positive"], "Long")]
        ∧ annotatedType "Map" [(["@NotBlank"], "String"), (["@NotNull", "@Positive"], "Long")]
          = "Map<@NotBlank String, @NotNull @Positive Long>" := by
  obtain ⟨artifact, primes, hassemble, hsummary⟩ :=
    exists_ok_of_summary
      (assemble (Metamodel.empty "shop") .standard (labelledOrder "Map<String, Long>" [.notBlank] [.notNull, .positive])
        (PrimeSupply.fixed .standard))
      (fun artifact => artifact.fields.map fun f => (f.type, f.keyTexts, f.valueTexts))
      (b := [("Map<String, Long>", ["@NotBlank"], ["@NotNull", "@Positive"])]) (by decide +kernel)
  obtain ⟨f, hfields, hf⟩ := List.map_eq_singleton_iff.mp hsummary
  simp only [Prod.mk.injEq] at hf
  obtain ⟨htype, hkeys, hvalues⟩ := hf
  have hconstrained : f.IsConstrained := by
    refine .inl fun hnone => ?_
    simp [JavaField.keyTexts, hnone] at hkeys
  obtain ⟨raw, arguments, hparts, -, -, hplaced, -⟩ :=
    type_constraints_are_written_iff hassemble f (by simp [hfields]) hconstrained
  have hmap : typeArguments? "Map<String, Long>" = some ("Map", ["String", "Long"]) := by decide +kernel
  rw [htype, hmap, Option.some.injEq, Prod.mk.injEq] at hparts
  obtain ⟨rfl, rfl⟩ := hparts
  rw [hkeys, hvalues] at hplaced
  exact ⟨artifact, primes, f, hassemble, hfields, hconstrained, hplaced.mpr (.inr (by decide)), by decide +kernel⟩

/-- A constraint on the values of a type with three arguments is accepted and written nowhere. -/
theorem type_constraint_lost_in_triple :
    ∃ (artifact : JavaClass) (primes : PrimeSupply) (f : JavaField),
      assemble (Metamodel.empty "shop") .standard (labelledOrder "Triple<String, Integer, Long>" [] [.positive])
          (PrimeSupply.fixed .standard) = (.ok artifact, primes)
        ∧ artifact.fields = [f]
        ∧ f.valueConstraints.map (·.text) = ["@Positive"]
        ∧ f.declaration = "private Triple<String, Integer, Long> labels;"
        ∧ f.declaredType ≠ annotatedType "Triple" (placed [] ["@Positive"] ["String", "Integer", "Long"])
        ∧ ∀ line ∈ artifact.lines, ¬ "@Positive".toList <:+: line.toList := by
  obtain ⟨artifact, primes, hassemble, hsummary⟩ :=
    exists_ok_of_summary
      (assemble (Metamodel.empty "shop") .standard (labelledOrder "Triple<String, Integer, Long>" [] [.positive])
        (PrimeSupply.fixed .standard))
      (fun artifact => (artifact.fields.map fun f =>
          (f.valueConstraints.map (·.text), f.declaration, f.declaredType),
        artifact.lines.all fun line => !line.toList.contains '@'))
      (b := ([(["@Positive"], "private Triple<String, Integer, Long> labels;", "Triple<String, Integer, Long>")], true))
      (by decide +kernel)
  rw [Prod.mk.injEq, List.all_eq_true] at hsummary
  obtain ⟨hfields, hlines⟩ := hsummary
  obtain ⟨f, hfields, hf⟩ := List.map_eq_singleton_iff.mp hfields
  simp only [Prod.mk.injEq] at hf
  obtain ⟨hvalues, hdeclaration, hdeclared⟩ := hf
  refine ⟨artifact, primes, f, hassemble, hfields, hvalues, hdeclaration, ?_, fun line hline hinfix => ?_⟩
  · rw [hdeclared]
    decide +kernel
  · have hfree := hlines line hline
    have hsign : '@' ∈ line.toList := hinfix.subset (by decide)
    simp [hsign] at hfree

end EntityForge
