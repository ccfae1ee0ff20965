import EntityForge.Synthesis.Persistence
import EntityForge.Proofs.Traversal

/-!
# Defaults that are spelled out

What the annotations of an attribute say with defaults written out and without. Nothing that is said without them is
lost or changes place, and what is added only repeats what holds anyway. Main statement:
`attributeUses_spells_out_defaults`.
-/

namespace EntityForge

open Java AnnotationUse

/-! ## Arguments beside the defaults -/

/-- The arguments of the annotation `on` are those of `off`, and a default for each key that `off` does not have. -/
structure Completes (defaults : List Argument) (off on : AnnotationUse) : Prop where
  package_eq : on.package = off.package
  name_eq : on.name = off.name
  types_eq : on.types = off.types
  keyed : ∀ x ∈ off.arguments, ∃ key, x.key = some key ∧ '=' ∉ key.toList
  kept : off.arguments.Sublist on.arguments
  added : ∀ x ∈ on.arguments, x ∈ off.arguments ∨ x ∈ defaults ∧ x.key ∉ off.arguments.map Argument.key
  stated : ∀ d ∈ defaults, d.key ∈ on.arguments.map Argument.key

/-- An annotation whose keys differ completes what is left of it without the defaults. -/
theorem Completes.of_filter {defaults : List Argument} {off on : AnnotationUse}
    (hpackage : on.package = off.package) (hname : on.name = off.name) (htypes : on.types = off.types)
    (harguments : off.arguments = on.arguments.filter (· ∉ defaults))
    (hkeyed : ∀ x ∈ off.arguments, ∃ key, x.key = some key ∧ '=' ∉ key.toList)
    (hnodup : (on.arguments.map Argument.key).Nodup)
    (hstated : ∀ d ∈ defaults, d.key ∈ on.arguments.map Argument.key) : Completes defaults off on := by
  refine ⟨hpackage, hname, htypes, hkeyed, ?_, ?_, hstated⟩
  · rw [harguments]
    exact List.filter_sublist
  · intro x hx
    by_cases hdefault : x ∈ defaults
    · refine .inr ⟨hdefault, fun hkey => ?_⟩
      obtain ⟨y, hy, hkey⟩ := List.mem_map.mp hkey
      rw [harguments, List.mem_filter] at hy
      have hyx : y = x := List.inj_on_of_nodup_map hnodup hy.1 hx hkey
      exact absurd hdefault (by simpa [hyx] using hy.2)
    · refine .inl ?_
      rw [harguments, List.mem_filter]
      exact ⟨hx, by simpa using hdefault⟩

/-- An argument that there may be stands under its key. -/
theorem key_of_mem_argument? {key : String} {value : Option Value} {x : Argument} (h : x ∈ argument? key value) :
    x.key = some key := by
  cases value with
  | none => simp [argument?] at h
  | some value => simp_all [argument?]

/-- An argument of a key that has no default stays. -/
theorem filter_argument?_eq_self {defaults : List Argument} {key : String} {value : Option Value}
    (hkey : ∀ d ∈ defaults, d.key ≠ some key) :
    (argument? key value).filter (· ∉ defaults) = argument? key value := by
  rw [List.filter_eq_self]
  intro x hx
  simpa using fun hdefault => hkey x hdefault (key_of_mem_argument? hx)

namespace Persistence

/-- The arguments that repeat what an annotation of a name says without them. -/
def defaultArguments (name : String) : List Argument :=
  if name = "Column" then
    [{ key := some "nullable", value := .bool true }, { key := some "unique", value := .bool false },
      { key := some "length", value := .int 255 }]
  else if name = "Convert" then [{ key := some "disableConversion", value := .bool false }]
  else []

/-- The annotation `on` stands where `off` stands, and says the same with its defaults spelled out. -/
inductive SpellsOut : AnnotationUse → AnnotationUse → Prop
  /-- Columns and converters get the defaults that they do not state. -/
  | completes {off on : AnnotationUse} (hname : off.name = "Column" ∨ off.name = "Convert")
      (h : Completes (defaultArguments off.name) off on) : SpellsOut off on
  /-- A bare enumeration is stored by position. -/
  | ordinal : SpellsOut (use "Enumerated") (withConstant (use "Enumerated") none "EnumType" Enumerated.ordinal)
  /-- All else stays as it is. -/
  | same {both : AnnotationUse} (hname : both.name ≠ "Column" ∧ both.name ≠ "Convert")
      (hbare : ¬(both.name = "Enumerated" ∧ both.arguments = [])) : SpellsOut both both

/-! ## Texts and imports -/

/-- An annotation of a name, written with the texts of its arguments. -/
def writtenWith (name : String) (arguments : List String) : String :=
  if arguments.isEmpty then "@" ++ name else "@" ++ name ++ "(" ++ ", ".intercalate arguments ++ ")"

/-- The keys that an annotation of a name has defaults for, and these defaults as they are written. -/
def defaultTexts (name : String) : List (String × String) :=
  if name = "Column" then [("nullable", "true"), ("unique", "false"), ("length", "255")]
  else if name = "Convert" then [("disableConversion", "false")] else []

/-- The text of an argument begins with the key and an equals sign. -/
def Sets (key argument : String) : Prop :=
  (key ++ "=").toList <+: argument.toList

/-- The code `on` stands where `off` stands, with the same types to import unless it names one more, and its text says
the same with the defaults spelled out. -/
inductive CodeSpellsOut : Code → Code → Prop
  /-- The arguments of columns and converters stay in their order, and each further one is a default whose key none of
  them sets. -/
  | completes {name : String} {off on imports : List String} (hname : name = "Column" ∨ name = "Convert")
      (hkept : off.Sublist on)
      (hadded : ∀ x ∈ on, x ∈ off ∨ ∃ d ∈ defaultTexts name, x = d.1 ++ "=" ++ d.2 ∧ ∀ y ∈ off, ¬Sets d.1 y)
      (hstated : ∀ d ∈ defaultTexts name, ∃ x ∈ on, Sets d.1 x) :
      CodeSpellsOut ⟨writtenWith name off, imports⟩ ⟨writtenWith name on, imports⟩
  | ordinal :
      CodeSpellsOut ⟨"@Enumerated", ["javax.persistence.Enumerated"]⟩
        ⟨"@Enumerated(EnumType.ORDINAL)", ["javax.persistence.Enumerated", "javax.persistence.EnumType"]⟩
  | same {name : String} {arguments imports : List String} (hname : name ≠ "Column" ∧ name ≠ "Convert")
      (hbare : ¬(name = "Enumerated" ∧ arguments = [])) :
      CodeSpellsOut ⟨writtenWith name arguments, imports⟩ ⟨writtenWith name arguments, imports⟩

theorem code_eq (use : AnnotationUse) :
    use.code = ⟨writtenWith use.name (use.arguments.map Argument.text), use.code.imports⟩ := by
  have htext : use.code.text = writtenWith use.name (use.arguments.map Argument.text) := by
    simp [AnnotationUse.code, Code.ofText, AnnotationUse.text, writtenWith]
  rw [← htext]

/-- The types that an annotation needs do not depend on what its arguments say. -/
theorem imports_code_congr {off on : AnnotationUse} (hpackage : on.package = off.package) (hname : on.name = off.name)
    (htypes : on.types = off.types) : on.code.imports = off.code.imports := by
  have hbare : (Code.ofText on.text).imports = (Code.ofText off.text).imports := rfl
  rw [AnnotationUse.code, AnnotationUse.code, hpackage, hname, htypes]
  exact Code.imports_needingAll_congr (Code.imports_needing_congr hbare _) _

/-- An argument sets the key that it stands under, and no other. -/
theorem sets_text_iff {x : Argument} {own key : String} (hown : x.key = some own) (hplain : '=' ∉ own.toList)
    (hkey : '=' ∉ key.toList) : Sets key x.text ↔ own = key := by
  have hbefore : ∀ {cs rest : List Char}, '=' ∉ cs → (cs ++ '=' :: rest).takeWhile (· ≠ '=') = cs := by
    intro cs rest h
    rw [List.takeWhile_append_of_pos (by simpa using fun c hc => ne_of_mem_of_not_mem hc h)]
    simp
  have htext : x.text.toList = own.toList ++ '=' :: x.value.written.toList := by
    simp [Argument.text, hown]
  constructor
  · rintro ⟨rest, hrest⟩
    have hwhole : own.toList ++ '=' :: x.value.written.toList = key.toList ++ '=' :: rest := by
      rw [← htext, ← hrest]
      simp
    rw [← String.toList_inj, ← hbefore hplain, hwhole, hbefore hkey]
  · rintro rfl
    exact ⟨x.value.written.toList, by simp [htext]⟩

/-- Every default is written under its key. -/
theorem exists_defaultTexts {name : String} (hname : name = "Column" ∨ name = "Convert") :
    (∀ d ∈ defaultArguments name, ∃ t ∈ defaultTexts name, d.key = some t.1 ∧ d.text = t.1 ++ "=" ++ t.2)
      ∧ ∀ t ∈ defaultTexts name, '=' ∉ t.1.toList ∧ ∃ d ∈ defaultArguments name, d.key = some t.1 := by
  rcases hname with rfl | rfl <;> decide +kernel

/-- What completes an annotation completes its text, and needs the same types. -/
theorem codeSpellsOut_of_completes {off on : AnnotationUse} (hname : off.name = "Column" ∨ off.name = "Convert")
    (h : Completes (defaultArguments off.name) off on) : CodeSpellsOut off.code on.code := by
  obtain ⟨hwritten, hkeys⟩ := exists_defaultTexts hname
  rw [code_eq off, code_eq on, imports_code_congr h.package_eq h.name_eq h.types_eq, h.name_eq]
  refine .completes hname (h.kept.map _) ?_ ?_
  · intro text htext
    obtain ⟨x, hx, rfl⟩ := List.mem_map.mp htext
    refine (h.added x hx).imp (List.mem_map_of_mem) fun ⟨hdefault, hfree⟩ => ?_
    obtain ⟨t, ht, hkey, htext⟩ := hwritten x hdefault
    refine ⟨t, ht, htext, fun y hy hsets => ?_⟩
    obtain ⟨z, hz, rfl⟩ := List.mem_map.mp hy
    obtain ⟨own, hown, hplain⟩ := h.keyed z hz
    have hown' : own = t.1 := (sets_text_iff hown hplain (hkeys t ht).1).mp hsets
    exact hfree (List.mem_map.mpr ⟨z, hz, by rw [hown, hown', hkey]⟩)
  · intro t ht
    obtain ⟨hplain, d, hd, hkey⟩ := hkeys t ht
    obtain ⟨x, hx, hxkey⟩ := List.mem_map.mp (h.stated d hd)
    exact ⟨x.text, List.mem_map_of_mem hx, (sets_text_iff (hxkey.trans hkey) hplain hplain).mpr rfl⟩

/-- Annotations with their defaults spelled out are written so. -/
theorem SpellsOut.code {off on : AnnotationUse} (h : SpellsOut off on) : CodeSpellsOut off.code on.code := by
  cases h with
  | completes hname h => exact codeSpellsOut_of_completes hname h
  | ordinal => exact .ordinal
  | same hname hbare =>
    rw [code_eq]
    exact .same hname (by simpa using hbare)

theorem codeSpellsOut_map {off on : List AnnotationUse} (h : List.Forall₂ SpellsOut off on) :
    List.Forall₂ CodeSpellsOut (off.map AnnotationUse.code) (on.map AnnotationUse.code) :=
  List.forall₂_map_left_iff.mpr (List.forall₂_map_right_iff.mpr (h.imp fun _ _ => SpellsOut.code))

/-! ## Columns and converters -/

/-- A flag that is written only where it is not the default is what is left of the flag that is always written. -/
theorem argument?_flagArgument {defaults : List Argument} {key : String} {default value : Bool}
    (hkey : ∀ b, { key := some key, value := .bool b } ∈ defaults ↔ b = default) :
    argument? key (flagArgument false default value) =
      (argument? key (flagArgument true default value)).filter (· ∉ defaults) := by
  by_cases hvalue : value = default
  · simp [argument?, flagArgument, hvalue, hkey]
  · simp [argument?, flagArgument, hvalue, hkey]

theorem arguments_columnUse (defaults : Bool) (column : Column) :
    (columnUse defaults column).arguments =
      argument? "name" ((Text.nonBlank? column.name).map .text)
        ++ argument? "nullable" (flagArgument defaults true (column.nullable.getD true))
        ++ argument? "unique" (flagArgument defaults false (column.unique.getD false))
        ++ argument? "length"
          (if defaults || (column.length.map UInt32.toNat).getD defaultLength != defaultLength then
            some (.int ((column.length.map UInt32.toNat).getD defaultLength)) else none) := by
  simp only [columnUse, arguments_arg?]
  rfl

/-- The defaults of a column are stated where they were left out. -/
theorem columnUse_completes (column : Column) :
    Completes (defaultArguments "Column") (columnUse false column) (columnUse true column) := by
  have hname : ∀ d ∈ defaultArguments "Column", d.key ≠ some "name" := by decide
  have hlength : ∀ length : Nat,
      argument? "length" (if length != defaultLength then some (.int length) else none) =
        (argument? "length" (some (.int length))).filter (· ∉ defaultArguments "Column") := by
    intro length
    by_cases h : length = defaultLength
    · subst h
      decide
    · have hne : (length : Int) ≠ 255 := by
        intro h255
        exact h (by rw [defaultLength]; omega)
      simp [argument?, defaultArguments, h, hne]
  refine .of_filter ?_ ?_ ?_ ?_ ?_ ?_ ?_
  · simp [columnUse]
  · simp
  · simp [columnUse]
  · rw [arguments_columnUse, arguments_columnUse, List.filter_append, List.filter_append, List.filter_append,
      filter_argument?_eq_self hname, ← argument?_flagArgument (by simp [defaultArguments]),
      ← argument?_flagArgument (by simp [defaultArguments]), Bool.false_or, Bool.true_or, hlength]
    rfl
  · rw [arguments_columnUse]
    simp only [List.mem_append]
    rintro x (((hx | hx) | hx) | hx) <;> exact ⟨_, key_of_mem_argument? hx, by decide⟩
  · rw [arguments_columnUse]
    cases Text.nonBlank? column.name <;> simp [argument?, flagArgument]
  · rw [arguments_columnUse]
    simp [argument?, flagArgument, defaultArguments]

theorem arguments_convertUse (defaults : Bool) (convert : Convert) :
    (convertUse defaults convert).arguments =
      argument? "converter" ((Text.nonBlank? convert.converter).map fun name => .classLiteral (simpleName name))
        ++ argument? "disableConversion" (flagArgument defaults false convert.disableConversion)
        ++ argument? "attributeName" ((Text.nonBlank? convert.attributeName).map .text) := by
  rw [convertUse]
  cases Text.nonBlank? convert.converter <;> simp only [Option.elim, AnnotationUse.naming, arguments_arg?] <;> rfl

/-- The default of a converter is stated where it was left out. -/
theorem convertUse_completes (convert : Convert) :
    Completes (defaultArguments "Convert") (convertUse false convert) (convertUse true convert) := by
  have hconverter : ∀ d ∈ defaultArguments "Convert", d.key ≠ some "converter" := by decide
  have hattribute : ∀ d ∈ defaultArguments "Convert", d.key ≠ some "attributeName" := by decide
  have hsame : (convertUse true convert).package = (convertUse false convert).package ∧
      (convertUse true convert).name = (convertUse false convert).name ∧
      (convertUse true convert).types = (convertUse false convert).types := by
    simp only [convertUse]
    cases Text.nonBlank? convert.converter <;>
      simp only [Option.elim, AnnotationUse.naming, package_arg?, name_arg?, types_arg?, and_self]
  refine .of_filter hsame.1 hsame.2.1 hsame.2.2 ?_ ?_ ?_ ?_
  · rw [arguments_convertUse, arguments_convertUse, List.filter_append, List.filter_append,
      filter_argument?_eq_self hconverter, filter_argument?_eq_self hattribute,
      ← argument?_flagArgument (by simp [defaultArguments])]
  · rw [arguments_convertUse]
    simp only [List.mem_append]
    rintro x ((hx | hx) | hx) <;> exact ⟨_, key_of_mem_argument? hx, by decide⟩
  · rw [arguments_convertUse]
    cases Text.nonBlank? convert.converter <;> cases Text.nonBlank? convert.attributeName <;>
      simp [argument?, flagArgument]
  · rw [arguments_convertUse]
    simp [argument?, flagArgument, defaultArguments]

/-! ## All annotations of an attribute -/

/-- What an attribute is to its class needs no default spelled out, unless the attribute is basic. -/
theorem mappingUses_eq_of_ne_basic {mapping : Mapping} (h : mapping ≠ .basic) (defaults : Bool) :
    mappingUses defaults mapping = mappingUses false mapping := by
  cases mapping with
  | basic => exact absurd rfl h
  | id generated => cases generated <;> rfl
  | _ => rfl

/-- What says what an attribute is to its class is neither a column, nor a converter, nor an enumeration. -/
theorem spellsOut_of_mem_mappingUses {mapping : Mapping} {uses : List AnnotationUse}
    (h : mappingUses false mapping = .ok uses) : ∀ use ∈ uses, SpellsOut use use := by
  have hnames : ∀ use ∈ uses, use.name ∈ ["Id", "GeneratedValue", "Version", "ElementCollection", "Transient",
      "Embedded", "EmbeddedId", "OneToOne", "ManyToOne", "OneToMany", "ManyToMany"] := by
    cases mapping with
    | id generated =>
      cases generated with
      | none =>
        cases h
        simp
      | some generation =>
        cases h
        simp
    | manyToOne relation | oneToMany relation | manyToMany relation =>
      rw [mappingUses] at h
      split at h
      · cases h
      · cases h
        simp
    | _ =>
      cases h
      simp
  intro both hboth
  have hname := hnames both hboth
  refine .same ⟨?_, ?_⟩ ?_
  · intro h
    simp [h] at hname
  · intro h
    simp [h] at hname
  · rintro ⟨h, -⟩
    simp [h] at hname

/-- The bare enumeration gets its constant, and a stated constant stays. -/
theorem enumeratedUse_spellsOut (enumerated : Enumerated) :
    SpellsOut (enumeratedUse false enumerated) (enumeratedUse true enumerated) := by
  cases enumerated with
  | ordinal => exact .ordinal
  | string => exact .same (by decide) (by decide)

/-- What is said of an optional setting is spelled out when it is for every setting. -/
theorem spellsOut_toList {α : Type} {off on : α → AnnotationUse} (h : ∀ setting, SpellsOut (off setting) (on setting))
    (setting : Option α) : List.Forall₂ SpellsOut (setting.map off).toList (setting.map on).toList := by
  cases setting with
  | none => exact .nil
  | some setting => exact .cons (h setting) .nil

/-- What says how the column of an attribute holds its values, with its defaults spelled out and without. -/
theorem columnUses_spellsOut (a : Attribute) :
    List.Forall₂ SpellsOut (columnUses false a) (columnUses true a) := by
  have hcolumn : ∀ column, SpellsOut (columnUse false column) (columnUse true column) := fun column =>
    .completes (.inl (name_columnUse false column)) (name_columnUse false column ▸ columnUse_completes column)
  have hlob : SpellsOut (use "Lob") (use "Lob") := .same (by decide) (by decide)
  have htemporal : ∀ temporal, SpellsOut (temporalUse temporal) (temporalUse temporal) := by
    intro temporal
    cases temporal <;> exact .same (by decide) (by decide)
  refine List.rel_append (List.rel_append (List.rel_append ?_ ?_) ?_) ?_
  · exact spellsOut_toList hcolumn a.column
  · cases a.lob with
    | true => exact .cons hlob .nil
    | false => exact .nil
  · exact spellsOut_toList htemporal a.temporal
  · exact spellsOut_toList enumeratedUse_spellsOut a.enumerated

theorem convertUses_spellsOut (a : Attribute) :
    List.Forall₂ SpellsOut (a.convert.map (convertUse false)).toList (a.convert.map (convertUse true)).toList :=
  spellsOut_toList (fun convert => .completes (.inr (name_convertUse false convert))
    (name_convertUse false convert ▸ convertUse_completes convert)) a.convert

/-- **Defaults are only spelled out**: with and without them the annotations of an attribute are refused for the same
fault; or, an explicit `@Basic` apart, they stand one beside the other and say the same, and so do their texts and the
types to import for them. -/
theorem attributeUses_spells_out_defaults (kind : ClassKind) (a : Attribute) :
    (∃ fault, attributeUses false kind a = .error fault ∧ attributeUses true kind a = .error fault) ∨
      ∃ off on, attributeUses false kind a = .ok off ∧
        attributeUses true kind a =
          .ok ((if kind.isManaged ∧ a.mapping = .basic then [use "Basic"] else []) ++ on) ∧
        List.Forall₂ SpellsOut off on ∧
        List.Forall₂ CodeSpellsOut (off.map AnnotationUse.code) (on.map AnnotationUse.code) := by
  by_cases hkind : kind.isManaged
  swap
  · exact .inr ⟨[], [], by simp [attributeUses, hkind], by simp [attributeUses, hkind], .nil, .nil⟩
  have hsettings := List.rel_append (columnUses_spellsOut a) (convertUses_spellsOut a)
  by_cases hbasic : a.mapping = .basic
  · refine .inr ⟨_, _, ?_, ?_, hsettings, codeSpellsOut_map hsettings⟩
    · simp [attributeUses, hkind, hbasic, mappingUses, hasColumn, bind, Except.bind]
    · simp [attributeUses, hkind, hbasic, mappingUses, hasColumn, bind, Except.bind]
  have hboth := mappingUses_eq_of_ne_basic hbasic true
  cases hmapping : mappingUses false a.mapping with
  | error fault =>
    refine .inl ⟨fault, ?_, ?_⟩
    · simp [attributeUses, hkind, hmapping, bind, Except.bind]
    · simp [attributeUses, hkind, hboth, hmapping, bind, Except.bind]
  | ok mapping =>
    cases hrefused : hasColumnSettings a && !hasColumn a.mapping with
    | true =>
      refine .inl ⟨.columnSettings, ?_, ?_⟩
      · simp [attributeUses, hkind, hmapping, hrefused, bind, Except.bind]
      · simp [attributeUses, hkind, hboth, hmapping, hrefused, bind, Except.bind]
    | false =>
      have hkept : List.Forall₂ SpellsOut mapping mapping :=
        List.forall₂_same.mpr (spellsOut_of_mem_mappingUses hmapping)
      have hall := List.rel_append hkept hsettings
      refine .inr ⟨_, _, ?_, ?_, hall, codeSpellsOut_map hall⟩
      · simp [attributeUses, hkind, hmapping, hrefused, bind, Except.bind]
      · simp [attributeUses, hkind, hbasic, hboth, hmapping, hrefused, bind, Except.bind]

end Persistence

end EntityForge
