import EntityForge.Metamodel.Reader
import EntityForge.Proofs.TaggedVariation
import EntityForge.Proofs.Writing

/-!
# Reading a metamodel back

Each type of the metamodel has a form: the fields of its records with their defaults, in the order in which they are
written. The form says which variations of a written value mean the same, and its reader finds that value in each of
them.

Main statement: `ofText?_of_form`, that a metamodel is read from every text of every variation of what it is written as.
-/

namespace EntityForge

open Json

/-! ## References, annotations and code -/

def TypeRef.form : Form :=
  .record [.required "name" .same, .optional "enabled" (.bool true) .same]

theorem TypeRef.reads : Reads TypeRef.form TypeRef.toJson TypeRef.read := by
  refine .record rfl (by decide) (fun r => .keep rfl (.keep rfl .nil)) fun r record h => ?_
  simp only [List.forall₂_cons] at h
  obtain ⟨hname, henabled, -⟩ := h
  rw [hname.required .text, henabled.optional .bool]
  rfl

def AnnotationAt.form : Form :=
  .record [.required "name" .same, .required "location" .same, .optional "enabled" (.bool true) .same]

theorem AnnotationAt.reads {L : Type} [Spelled L] :
    Reads AnnotationAt.form (AnnotationAt.toJson (L := L)) AnnotationAt.read := by
  refine .record rfl (by decide) (fun a => .keep rfl (.keep rfl (.keep rfl .nil))) fun a record h => ?_
  simp only [List.forall₂_cons] at h
  obtain ⟨hname, hlocation, henabled, -⟩ := h
  rw [hname.required .text, hlocation.required .word, henabled.optional .bool]
  rfl

def SnippetAt.form : Form :=
  .record [.required "value" .same, .required "location" .same, .optional "enabled" (.bool true) .same]

theorem SnippetAt.reads {L : Type} [Spelled L] :
    Reads SnippetAt.form (SnippetAt.toJson (L := L)) SnippetAt.read := by
  refine .record rfl (by decide) (fun s => .keep rfl (.keep rfl (.keep rfl .nil))) fun s record h => ?_
  simp only [List.forall₂_cons] at h
  obtain ⟨hvalue, hlocation, henabled, -⟩ := h
  rw [hvalue.required .text, hlocation.required .word, henabled.optional .bool]
  rfl

/-! ## Bindings -/

def Format.form : Form :=
  .record [.nullable "value" .same, .nullable "locale" .same]

theorem Format.reads : Reads Format.form Format.toJson Format.read := by
  refine .record rfl (by decide)
    (fun f => .keep (Reads.text.nullable_self _) (.keep (Reads.text.nullable_self _) .nil))
    fun f record h => ?_
  simp only [List.forall₂_cons] at h
  obtain ⟨hvalue, hlocale, -⟩ := h
  rw [hvalue.nullable .text, hlocale.nullable .text]
  rfl

/-- The fields of formats and converters, which are among those of a binding. -/
def BindingTypes.fields : List Field :=
  [.nullable "date_format" Format.form, .nullable "number_format" Format.form,
    .nullable "type_adapter" TypeRef.form, .nullable "type_deserializer" TypeRef.form,
    .nullable "type_serializer" TypeRef.form]

theorem BindingTypes.kept_self (t : BindingTypes) : Kept BindingTypes.fields t.toFields t.toFields :=
  .keep (Format.reads.nullable_self _) <| .keep (Format.reads.nullable_self _) <|
    .keep (TypeRef.reads.nullable_self _) <| .keep (TypeRef.reads.nullable_self _) <|
    .keep (TypeRef.reads.nullable_self _) .nil

theorem BindingTypes.ofRecord_eq {t : BindingTypes} {record : Record}
    (h : FoundAll record BindingTypes.fields t.toFields) : BindingTypes.ofRecord record = some t := by
  simp only [BindingTypes.fields, BindingTypes.toFields, List.forall₂_cons] at h
  obtain ⟨hdate, hnumber, hadapter, hdeserializer, hserializer, -⟩ := h
  rw [BindingTypes.ofRecord, hdate.nullable Format.reads, hnumber.nullable Format.reads,
    hadapter.nullable TypeRef.reads, hdeserializer.nullable TypeRef.reads,
    hserializer.nullable TypeRef.reads]
  rfl

def ClassBinding.form : Form :=
  .record ([.flag "nillable", .items "property_order" .same] ++ BindingTypes.fields
    ++ [.nullable "visibility" TypeRef.form])

theorem ClassBinding.reads : Reads ClassBinding.form ClassBinding.toJson ClassBinding.read := by
  refine .record rfl (by decide) (fun b => ?_) fun b record h => ?_
  · have hfront : Kept [.flag "nillable", .items "property_order" .same]
        [("nillable", .bool b.nillable), ("property_order", Json.list .text b.propertyOrder)]
        [("nillable", .bool b.nillable), ("property_order", Json.list .text b.propertyOrder)] :=
      .keep rfl (.keep (Reads.text.list.self _) .nil)
    exact (hfront.append b.types.kept_self).append (.keep (TypeRef.reads.nullable_self _) .nil)
  · simp only [BindingTypes.fields, BindingTypes.toFields, List.cons_append, List.nil_append,
      List.forall₂_cons] at h
    obtain ⟨hnillable, horder, hdate, hnumber, hadapter, hdeserializer, hserializer, hvisibility, -⟩ := h
    have htypes : BindingTypes.ofRecord record = some b.types :=
      BindingTypes.ofRecord_eq
        (.cons hdate (.cons hnumber (.cons hadapter (.cons hdeserializer (.cons hserializer .nil)))))
    rw [hnillable.flag, horder.items .text, htypes, hvisibility.nullable TypeRef.reads]
    rfl

def AttributeBinding.form : Form :=
  .record ([.flag "transient", .nullable "property" .same, .flag "nillable"] ++ BindingTypes.fields)

theorem AttributeBinding.reads :
    Reads AttributeBinding.form AttributeBinding.toJson AttributeBinding.read := by
  refine .record rfl (by decide) (fun b => ?_) fun b record h => ?_
  · exact .keep rfl (.keep (Reads.text.nullable_self _) (.keep rfl b.types.kept_self))
  · simp only [BindingTypes.fields, BindingTypes.toFields, List.cons_append, List.nil_append,
      List.forall₂_cons] at h
    obtain ⟨htransient, hproperty, hnillable, hdate, hnumber, hadapter, hdeserializer, hserializer, -⟩ := h
    have htypes : BindingTypes.ofRecord record = some b.types :=
      BindingTypes.ofRecord_eq
        (.cons hdate (.cons hnumber (.cons hadapter (.cons hdeserializer (.cons hserializer .nil)))))
    rw [htransient.flag, hproperty.nullable .text, hnillable.flag, htypes]
    rfl

/-! ## Mappings -/

/-- The options that the four kinds of relationships have. -/
def Relation.fields : List Field :=
  [.nullable "mapped_by" .same, .nullable "optional" .same, .nullable "fetch" .same]

/-- The options of a mapping of a kind. -/
def Mapping.options : String → List Field
  | "id" => [.nullable "generated" .same]
  | "element_collection" => [.nullable "fetch" .same]
  | "one_to_one" | "many_to_one" | "one_to_many" | "many_to_many" => Relation.fields
  | _ => []

def Mapping.form : Form :=
  .tagged [] Mapping.options

/-- The word for the kind of a mapping. -/
def Mapping.kindWord : Mapping → String
  | .id _ => "id"
  | .basic => "basic"
  | .version => "version"
  | .transient => "transient"
  | .embedded => "embedded"
  | .embeddedId => "embedded_id"
  | .elementCollection _ => "element_collection"
  | .oneToOne _ => "one_to_one"
  | .manyToOne _ => "many_to_one"
  | .oneToMany _ => "one_to_many"
  | .manyToMany _ => "many_to_many"

/-- What a mapping is written as besides its kind. -/
def Mapping.toOptions : Mapping → Record
  | .id generated => [("generated", orNull word generated)]
  | .elementCollection fetch => [("fetch", orNull word fetch)]
  | .oneToOne r | .manyToOne r | .oneToMany r | .manyToMany r => r.toFields
  | _ => []

theorem Mapping.toJson_eq (m : Mapping) :
    m.toJson = .object (("kind", .text m.kindWord) :: m.toOptions) := by
  cases m <;> rfl

theorem Relation.kept_self (r : Relation) : Kept Relation.fields r.toFields r.toFields :=
  .keep (Reads.text.nullable_self _) <| .keep (Reads.bool.nullable_self _) <|
    .keep (Reads.taggedWord.nullable_self _) .nil

theorem Relation.reads :
    Reads (.record Relation.fields) (fun r : Relation => .object r.toFields) Relation.read := by
  refine .record rfl (by decide) Relation.kept_self fun r record h => ?_
  simp only [Relation.fields, Relation.toFields, List.forall₂_cons] at h
  obtain ⟨hmapped, hoptional, hfetch, -⟩ := h
  rw [hmapped.nullable .text, hoptional.nullable .bool, hfetch.nullable .taggedWord]
  rfl

/-- What is left of a mapping without its kind is read as the mapping of that kind. -/
theorem Mapping.ofKind_eq {m : Mapping} {rest : Json}
    (h : Form.record (Mapping.options m.kindWord) (.object m.toOptions) rest) :
    Mapping.ofKind m.kindWord rest = some m := by
  cases m with
  | id generated => exact Reads.taggedWord.one_map h Mapping.id
  | elementCollection fetch => exact Reads.taggedWord.one_map h Mapping.elementCollection
  | oneToOne r | manyToOne r | oneToMany r | manyToMany r =>
    have hread : Relation.read rest = some r := Relation.reads.read_eq h
    show (Relation.read rest).map _ = _
    rw [hread]
    rfl
  | basic | version | transient | embedded | embeddedId =>
    cases h
    rfl

theorem Mapping.options_isFixed (m : Mapping) : ∀ field ∈ Mapping.options m.kindWord, field.IsFixed := by
  cases m <;> simp [Mapping.options, Mapping.kindWord, Relation.fields, Field.isFixed_nullable_same]

theorem Mapping.toOptions_keepable (m : Mapping) (room : Nat) :
    ∀ entry ∈ m.toOptions, keepable room entry.2 = true := by
  cases m <;> simp [Mapping.toOptions, Relation.toFields]

theorem Mapping.kept_self (m : Mapping) :
    Kept (Mapping.options m.kindWord) m.toOptions m.toOptions := by
  cases m with
  | id generated => exact .keep (Reads.taggedWord.nullable_self _) .nil
  | elementCollection fetch => exact .keep (Reads.taggedWord.nullable_self _) .nil
  | oneToOne r | manyToOne r | oneToMany r | manyToMany r => exact r.kept_self
  | basic | version | transient | embedded | embeddedId => exact .nil

theorem Mapping.reads {room : Nat} (hroom : 0 < room) :
    Reads Mapping.form Mapping.toJson (Mapping.read room) := by
  rw [show Mapping.toJson = fun m => .object (("kind", .text m.kindWord) :: m.toOptions) from
    funext Mapping.toJson_eq]
  refine .tagged hroom (fun m => ?_) Mapping.options_isFixed (fun m => m.toOptions_keepable _)
    Mapping.kept_self fun m rest h => Mapping.ofKind_eq h
  cases m <;> simp [Mapping.options, Mapping.kindWord, Relation.fields]

/-! ## Columns and converters -/

def Column.form : Form :=
  .record [.nullable "name" .same, .nullable "nullable" .same, .nullable "unique" .same,
    .nullable "length" .same]

theorem Column.reads : Reads Column.form Column.toJson Column.read := by
  refine .record rfl (by decide) (fun c => ?_) fun c record h => ?_
  · exact .keep (Reads.text.nullable_self _) <| .keep (Reads.bool.nullable_self _) <|
      .keep (Reads.bool.nullable_self _) <| .keep (Reads.uint32.nullable_self _) .nil
  · simp only [List.forall₂_cons] at h
    obtain ⟨hname, hnullable, hunique, hlength, -⟩ := h
    rw [hname.nullable .text, hnullable.nullable .bool, hunique.nullable .bool,
      hlength.nullable .uint32]
    rfl

def Convert.form : Form :=
  .record [.nullable "converter" .same, .flag "disable_conversion", .nullable "attribute_name" .same]

theorem Convert.reads : Reads Convert.form Convert.toJson Convert.read := by
  refine .record rfl (by decide) (fun c => ?_) fun c record h => ?_
  · exact .keep (Reads.text.nullable_self _) <| .keep rfl <| .keep (Reads.text.nullable_self _) .nil
  · simp only [List.forall₂_cons] at h
    obtain ⟨hconverter, hdisable, hattribute, -⟩ := h
    rw [hconverter.nullable .text, hdisable.flag, hattribute.nullable .text]
    rfl

/-! ## Constraints -/

/-- The options of a rule of a kind. -/
def Rule.options : String → List Field
  | "Min" | "Max" => [.nullable "value" .same]
  | "DecimalMin" | "DecimalMax" => [.nullable "value" .same, .nullable "inclusive" .same]
  | "Size" => [.nullable "min" .same, .nullable "max" .same]
  | "Digits" => [.nullable "integer" .same, .nullable "fraction" .same]
  | "Pattern" => [.nullable "regexp" .same, .items "flags" .same]
  | "Email" => [.nullable "regexp" .same]
  | _ => []

/-- A rule is written as its kind and then its options. -/
theorem Rule.toFields_eq (r : Rule) : r.toFields = ("kind", .text r.annotationName) :: r.toFields.tail := by
  cases r <;> rfl

theorem Rule.readDecimal_eq {value : Option String} {inclusive : Option Bool} {rest : Json}
    (h : Form.record [.nullable "value" .same, .nullable "inclusive" .same]
      (.object [("value", orNull .text value), ("inclusive", orNull .bool inclusive)]) rest) :
    Rule.readDecimal rest = some (value, inclusive) :=
  (Reads.text.two .bool (by decide)).read_eq (a := (value, inclusive)) h

theorem Rule.readCounts_eq {first second : String} (hne : first ≠ second) {low high : Option UInt32}
    {rest : Json}
    (h : Form.record [.nullable first .same, .nullable second .same]
      (.object [(first, orNull (fun n => .int n.toNat) low), (second, orNull (fun n => .int n.toNat) high)])
      rest) : Rule.readCounts first second rest = some (low, high) :=
  (Reads.uint32.two .uint32 hne).read_eq (a := (low, high)) h

theorem Rule.readPattern_eq {regexp : Option String} {flags : List PatternFlag} {rest : Json}
    (h : Form.record [.nullable "regexp" .same, .items "flags" .same]
      (.object [("regexp", orNull .text regexp), ("flags", list word flags)]) rest) :
    Rule.ofKind "Pattern" rest = some (.pattern regexp flags) := by
  cases h with
  | fields _ h =>
    obtain ⟨record, hrecord, hfound⟩ := h.exists_record (by decide)
    simp only [List.forall₂_cons] at hfound
    obtain ⟨hregexp, hflags, -⟩ := hfound
    show ((Json.object _).record? (names [.nullable "regexp" .same, .items "flags" .same])
      >>= fun r => do
        let regexp ← r.nullable "regexp" text?
        let flags ← r.items "flags" taggedWord?
        pure (Rule.pattern regexp flags)) = some (.pattern regexp flags)
    rw [hrecord]
    show (do
      let regexp ← record.nullable "regexp" text?
      let flags ← record.items "flags" taggedWord?
      pure (Rule.pattern regexp flags)) = some (.pattern regexp flags)
    rw [hregexp.nullable .text, hflags.items .taggedWord]
    rfl

/-- What is left of a rule without its kind is read as the rule of that kind. -/
theorem Rule.ofKind_eq {r : Rule} {rest : Json}
    (h : Form.record (Rule.options r.annotationName) (.object r.toFields.tail) rest) :
    Rule.ofKind r.annotationName rest = some r := by
  cases r with
  | marker m =>
    cases m <;> · cases h; rfl
  | min value | max value =>
    have hread : Rule.readBound rest = some value := (Reads.int64.one "value").read_eq h
    show (Rule.readBound rest).map _ = _
    rw [hread]
    rfl
  | decimalMin value inclusive | decimalMax value inclusive =>
    show (Rule.readDecimal rest).map _ = _
    rw [Rule.readDecimal_eq h]
    rfl
  | size low high =>
    show (Rule.readCounts "min" "max" rest).map _ = _
    rw [Rule.readCounts_eq (by decide) h]
    rfl
  | digits integer fraction =>
    show (Rule.readCounts "integer" "fraction" rest).map _ = _
    rw [Rule.readCounts_eq (by decide) h]
    rfl
  | pattern regexp flags => exact Rule.readPattern_eq h
  | email regexp => exact Reads.text.one_map h Rule.email

theorem Rule.options_isFixed (r : Rule) : ∀ field ∈ Rule.options r.annotationName, field.IsFixed := by
  cases r with
  | marker m => cases m <;> simp [Rule.options, Rule.annotationName, Spelled.spelling]
  | _ =>
    simp [Rule.options, Rule.annotationName, Field.isFixed_nullable_same, Field.isFixed_items_same]

theorem Rule.options_keepable (r : Rule) {room : Nat} (hroom : 0 < room) :
    ∀ entry ∈ r.toFields.tail, keepable room entry.2 = true := by
  cases r <;> simp [Rule.toFields, keepable_list_word hroom]

theorem Rule.kept_self (r : Rule) :
    Kept (Rule.options r.annotationName) r.toFields.tail r.toFields.tail := by
  cases r with
  | marker m => cases m <;> exact .nil
  | min value | max value => exact .keep (Reads.int64.nullable_self _) .nil
  | decimalMin value inclusive | decimalMax value inclusive =>
    exact .keep (Reads.text.nullable_self _) (.keep (Reads.bool.nullable_self _) .nil)
  | size low high | digits low high =>
    exact .keep (Reads.uint32.nullable_self _) (.keep (Reads.uint32.nullable_self _) .nil)
  | pattern regexp flags =>
    exact .keep (Reads.text.nullable_self _) (.keep (Reads.taggedWord.list.self _) .nil)
  | email regexp => exact .keep (Reads.text.nullable_self _) .nil

/-- The fields that a constraint has besides those of its rule. -/
def Constraint.own : List Field :=
  [.optional "selected" (.bool true) .same, .nullable "message" .same]

def Constraint.form : Form :=
  .tagged Constraint.own Rule.options

/-- The fields of a constraint and of its rule have different names. -/
theorem Constraint.nodup_fields (r : Rule) :
    (names (Constraint.own ++ .kind r.annotationName :: Rule.options r.annotationName)).Nodup := by
  cases r with
  | marker m => cases m <;> simp [Constraint.own, Rule.options, Rule.annotationName, Spelled.spelling]
  | _ => simp [Constraint.own, Rule.options, Rule.annotationName]

theorem Constraint.toJson_eq (c : Constraint) :
    c.toJson = .object ([("selected", .bool c.selected), ("message", orNull .text c.message)]
      ++ ("kind", .text c.rule.annotationName) :: c.rule.toFields.tail) := by
  rw [Constraint.toJson, ← Rule.toFields_eq]

theorem Constraint.reads {room : Nat} (hroom : 1 < room) :
    Reads Constraint.form Constraint.toJson (Constraint.read room) where
  self c := by
    have hown : Kept Constraint.own
        [("selected", .bool c.selected), ("message", orNull .text c.message)]
        [("selected", .bool c.selected), ("message", orNull .text c.message)] :=
      .keep rfl (.keep (Reads.text.nullable_self _) .nil)
    rw [Constraint.toJson_eq]
    exact .kind c.rule.annotationName
      (.fields (by simp) (.self (hown.append (.keep ⟨rfl, rfl⟩ c.rule.kept_self))))
  read_eq {c w} h := by
    rw [Constraint.toJson_eq] at h
    obtain ⟨added, changed, rfl, hadded, h⟩ := h.exists_varies rfl
    have hnodup := Constraint.nodup_fields c.rule
    have hnodupKind : (names (.kind c.rule.annotationName :: Rule.options c.rule.annotationName)).Nodup := by
      rw [names_append] at hnodup
      exact (List.nodup_append.mp hnodup).2.1
    -- The fields of the constraint itself are read from the whole object, those of the rule from what is left.
    obtain ⟨_, hown⟩ := h.take_front rfl hnodup
    obtain ⟨record, hrecord, hfound⟩ := hown.exists_record (by decide)
    simp only [Constraint.own, List.forall₂_cons] at hfound
    obtain ⟨hselected, hmessage, -⟩ := hfound
    have hothers : Varies (.kind c.rule.annotationName :: Rule.options c.rule.annotationName)
        (("kind", .text c.rule.annotationName) :: c.rule.toFields.tail) added
        (changed.filter fun field => field.1 != "selected" && field.1 != "message") :=
      h.drop_front rfl hnodup (by simp [Constraint.own])
    have hfixed : ∀ field ∈ Field.kind c.rule.annotationName :: Rule.options c.rule.annotationName,
        field.IsFixed := by
      rintro field (_ | ⟨_, hfield⟩)
      · exact Field.isFixed_kind _
      · exact c.rule.options_isFixed field hfield
    have hfull : ∀ entry ∈ ("kind", Json.text c.rule.annotationName) :: c.rule.toFields.tail,
        keepable (room - 1) entry.2 = true := by
      rintro entry (_ | ⟨_, hentry⟩)
      · rfl
      · exact c.rule.options_keepable (by omega) entry hentry
    have hkeepable := hothers.fieldsKeepable_eq hfixed hadded hfull
    have hsole := hothers.sole?_kind (List.nodup_cons.mp hnodupKind).1
    have hrule := Rule.ofKind_eq (.fields hadded (hothers.drop_kind hnodupKind))
    have hread : (Json.object changed).record? ["selected", "message"] = some record := hrecord
    have hcond : (decide (0 < room) && fieldsKeepable (room - 1)
        (changed.filter fun field => field.1 != "selected" && field.1 != "message")) = true := by
      rw [hkeepable, decide_eq_true (by omega)]
      rfl
    simp only [Constraint.read, hread, hselected.optional .bool, hmessage.nullable .text, if_pos hcond,
      hsole, Rule.kindOf?, hrule, Option.bind_eq_bind, Option.bind_some, Option.pure_def]
  read_null := rfl

/-! ## Attributes -/

def Attribute.form : Form :=
  .record [.required "name" .same, .required "data_type" .same,
    .optional "access" (word Access.privateAccess) .same, .nullable "default_value" .same,
    .nullable "description" .same, .optional "mapping" Mapping.basic.toJson Mapping.form,
    .nullable "column" Column.form, .nullable "convert" Convert.form, .flag "lob",
    .nullable "temporal" .same, .nullable "enumerated" .same, .items "constraints" Constraint.form,
    .items "key_constraints" Constraint.form, .items "value_constraints" Constraint.form,
    .optional "binding" AttributeBinding.unset.toJson AttributeBinding.form,
    .flag "property_change_support", .flag "vetoable_change_support",
    .items "annotations" AnnotationAt.form, .items "runtime_annotations" AnnotationAt.form,
    .items "snippets" SnippetAt.form, .items "runtime_snippets" SnippetAt.form]

theorem Attribute.reads {room : Nat} (hroom : 3 < room) :
    Reads Attribute.form Attribute.toJson (Attribute.read room) := by
  have hmapping : Reads Mapping.form Mapping.toJson (Mapping.read (room - 1)) :=
    Mapping.reads (by omega)
  have hconstraint : Reads Constraint.form Constraint.toJson (Constraint.read (room - 2)) :=
    Constraint.reads (by omega)
  refine .record rfl (by decide) (fun a => ?_) fun a record h => ?_
  · exact .keep rfl <| .keep rfl <| .keep rfl <| .keep (Reads.text.nullable_self _) <|
      .keep (Reads.text.nullable_self _) <| .keep (hmapping.self _) <|
      .keep (Column.reads.nullable_self _) <| .keep (Convert.reads.nullable_self _) <| .keep rfl <|
      .keep (Reads.word.nullable_self _) <| .keep (Reads.word.nullable_self _) <|
      .keep (hconstraint.list.self _) <| .keep (hconstraint.list.self _) <|
      .keep (hconstraint.list.self _) <| .keep (AttributeBinding.reads.self _) <| .keep rfl <|
      .keep rfl <| .keep (AnnotationAt.reads.list.self _) <| .keep (AnnotationAt.reads.list.self _) <|
      .keep (SnippetAt.reads.list.self _) <| .keep (SnippetAt.reads.list.self _) .nil
  · simp only [List.forall₂_cons] at h
    obtain ⟨hname, htype, haccess, hdefault, hdescription, hmap, hcolumn, hconvert, hlob, htemporal,
      henumerated, hconstraints, hkeys, hvalues, hbinding, hproperty, hvetoable, hannotations,
      hruntimeAnnotations, hsnippets, hruntimeSnippets, -⟩ := h
    rw [hname.required .text, htype.required .text, haccess.optional .word, hdefault.nullable .text,
      hdescription.nullable .text, hmap.optional hmapping, hcolumn.nullable Column.reads,
      hconvert.nullable Convert.reads, hlob.flag, htemporal.nullable .word, henumerated.nullable .word,
      hconstraints.items hconstraint, hkeys.items hconstraint, hvalues.items hconstraint,
      hbinding.optional AttributeBinding.reads, hproperty.flag, hvetoable.flag,
      hannotations.items AnnotationAt.reads, hruntimeAnnotations.items AnnotationAt.reads,
      hsnippets.items SnippetAt.reads, hruntimeSnippets.items SnippetAt.reads]
    rfl

/-! ## Classes -/

def MethodModel.form : Form :=
  .record [.items "attributes" .same, .nullable "pre_code" .same, .nullable "post_code" .same]

theorem MethodModel.reads : Reads MethodModel.form MethodModel.toJson MethodModel.read := by
  refine .record rfl (by decide) (fun m => ?_) fun m record h => ?_
  · exact .keep (Reads.text.list.self _) <| .keep (Reads.text.nullable_self _) <|
      .keep (Reads.text.nullable_self _) .nil
  · simp only [List.forall₂_cons] at h
    obtain ⟨hattributes, hpre, hpost, -⟩ := h
    rw [hattributes.items .text, hpre.nullable .text, hpost.nullable .text]
    rfl

def ConstructorModel.form : Form :=
  .record [.items "attributes" .same, .optional "enabled" (.bool true) .same,
    .optional "access" (word Access.publicAccess) .same]

theorem ConstructorModel.reads :
    Reads ConstructorModel.form ConstructorModel.toJson ConstructorModel.read := by
  refine .record rfl (by decide) (fun c => ?_) fun c record h => ?_
  · exact .keep (Reads.text.list.self _) <| .keep rfl <| .keep rfl .nil
  · simp only [List.forall₂_cons] at h
    obtain ⟨hattributes, henabled, haccess, -⟩ := h
    rw [hattributes.items .text, henabled.optional .bool, haccess.optional .word]
    rfl

def ClassModel.form : Form :=
  .record [.required "name" .same, .nullable "package" .same, .required "kind" .same, .flag "abstract",
    .optional "generate_source" (.bool true) .same, .nullable "table" .same, .nullable "superclass" .same,
    .nullable "superclass_ref" TypeRef.form, .items "interfaces" TypeRef.form,
    .items "attributes" Attribute.form, .items "constructors" ConstructorModel.form,
    .optional "equals_method" MethodModel.nothing.toJson MethodModel.form,
    .optional "hash_code_method" MethodModel.nothing.toJson MethodModel.form,
    .optional "to_string_method" MethodModel.nothing.toJson MethodModel.form,
    .items "annotations" AnnotationAt.form, .items "runtime_annotations" AnnotationAt.form,
    .items "snippets" SnippetAt.form, .items "runtime_snippets" SnippetAt.form,
    .optional "binding" ClassBinding.unset.toJson ClassBinding.form]

theorem ClassModel.reads {room : Nat} (hroom : 5 < room) :
    Reads ClassModel.form ClassModel.toJson (ClassModel.read room) := by
  have hattribute : Reads Attribute.form Attribute.toJson (Attribute.read (room - 2)) :=
    Attribute.reads (by omega)
  refine .record rfl (by decide) (fun c => ?_) fun c record h => ?_
  · exact .keep rfl <| .keep (Reads.text.nullable_self _) <| .keep rfl <| .keep rfl <| .keep rfl <|
      .keep (Reads.text.nullable_self _) <| .keep (Reads.text.nullable_self _) <|
      .keep (TypeRef.reads.nullable_self _) <| .keep (TypeRef.reads.list.self _) <|
      .keep (hattribute.list.self _) <| .keep (ConstructorModel.reads.list.self _) <|
      .keep (MethodModel.reads.self _) <| .keep (MethodModel.reads.self _) <|
      .keep (MethodModel.reads.self _) <| .keep (AnnotationAt.reads.list.self _) <|
      .keep (AnnotationAt.reads.list.self _) <| .keep (SnippetAt.reads.list.self _) <|
      .keep (SnippetAt.reads.list.self _) <| .keep (ClassBinding.reads.self _) .nil
  · simp only [List.forall₂_cons] at h
    obtain ⟨hname, hpackage, hkind, habstract, hgenerate, htable, hsuperclass, hsuperclassRef, hinterfaces,
      hattributes, hconstructors, hequals, hhashCode, htoString, hannotations, hruntimeAnnotations,
      hsnippets, hruntimeSnippets, hbinding, -⟩ := h
    rw [hname.required .text, hpackage.nullable .text, hkind.required .word, habstract.flag,
      hgenerate.optional .bool, htable.nullable .text, hsuperclass.nullable .text,
      hsuperclassRef.nullable TypeRef.reads, hinterfaces.items TypeRef.reads,
      hattributes.items hattribute, hconstructors.items ConstructorModel.reads,
      hequals.optional MethodModel.reads, hhashCode.optional MethodModel.reads,
      htoString.optional MethodModel.reads, hannotations.items AnnotationAt.reads,
      hruntimeAnnotations.items AnnotationAt.reads, hsnippets.items SnippetAt.reads,
      hruntimeSnippets.items SnippetAt.reads, hbinding.optional ClassBinding.reads]
    rfl

/-! ## The metamodel -/

def Metamodel.form : Form :=
  .record [.optional "package" (.text "") .same, .flag "binding_support",
    .nullable "persistence_unit" .same, .items "interfaces" TypeRef.form, .items "snippets" SnippetAt.form,
    .items "classes" ClassModel.form]

theorem Metamodel.reads : Reads Metamodel.form Metamodel.toJson Metamodel.read := by
  have hclass : Reads ClassModel.form ClassModel.toJson (ClassModel.read (maxNesting - 2)) :=
    ClassModel.reads (by decide)
  refine .record rfl (by decide) (fun m => ?_) fun m record h => ?_
  · exact .keep rfl <| .keep rfl <| .keep (Reads.text.nullable_self _) <|
      .keep (TypeRef.reads.list.self _) <| .keep (SnippetAt.reads.list.self _) <|
      .keep (hclass.list.self _) .nil
  · simp only [List.forall₂_cons] at h
    obtain ⟨hpackage, hbinding, hunit, hinterfaces, hsnippets, hclasses, -⟩ := h
    rw [hpackage.optional .text, hbinding.flag, hunit.nullable .text,
      hinterfaces.items TypeRef.reads, hsnippets.items SnippetAt.reads, hclasses.items hclass]
    rfl

/-- What a metamodel is written as, with nothing changed, is read as that metamodel. -/
theorem Metamodel.read_toJson (m : Metamodel) : Metamodel.read m.toJson = some m :=
  Metamodel.reads.read_eq (Metamodel.reads.self m)

/-- **Reading a metamodel back.** Take what a metamodel is written as with every field; reorder the fields of
objects, leave out any that has its default, and add any that its type does not know, at any depth. From each text
that writes the result, the metamodel itself is read. -/
theorem Metamodel.ofText?_of_form {m : Metamodel} {v : Json} {s : String} (hv : Metamodel.form m.toJson v)
    (hs : v.WrittenBy s) : Metamodel.ofText? s = some m := by
  rw [Metamodel.ofText?, Json.ofText?_of_writtenBy hs]
  exact Metamodel.reads.read_eq hv

/-- One entity whose attribute has a lower bound. -/
def agedPerson : Metamodel :=
  { Metamodel.empty "shop" with
    classes :=
      [{ ClassModel.empty "Person" .entity with
          attributes := [{ Attribute.plain "age" "int" with constraints := [.of (.min (some 0))] }] }] }

/-- The constraint of the attribute with its value ahead of its kind and with a field that is not known. -/
def sparseConstraint : Json :=
  .object [("value", .int 0), ("kind", .text "Min"), ("unit", .null)]

def sparseAttribute : Json :=
  .object [("data_type", .text "int"), ("name", .text "age"), ("constraints", .array [sparseConstraint])]

def sparseClass : Json :=
  .object [("kind", .text "entity"), ("name", .text "Person"), ("attributes", .array [sparseAttribute]),
    ("note", .text "people")]

/-- The metamodel of the entity with few fields, out of order, and with fields that are not known. -/
def sparsePerson : Json :=
  .object [("classes", .array [sparseClass]), ("package", .text "shop"), ("draft", .bool true)]

theorem form_sparseConstraint : Constraint.form (Constraint.of (.min (some 0))).toJson sparseConstraint := by
  have hkept : Kept (Constraint.own ++ .kind "Min" :: Rule.options "Min")
      [("selected", .bool true), ("message", .null), ("kind", .text "Min"), ("value", .int 0)]
      [("kind", .text "Min"), ("value", .int 0)] :=
    .leaveOut rfl <| .leaveOut rfl <| .keep ⟨rfl, rfl⟩ <| .keep (.value nofun rfl) .nil
  have hadded : ∀ entry ∈ [("unit", Json.null)], isPlain entry.2 := by decide
  exact .kind "Min" (.fields hadded ⟨by decide, _, hkept, .swap _ _ _⟩)

theorem form_sparseAttribute :
    Attribute.form
      { Attribute.plain "age" "int" with constraints := [.of (.min (some 0))] : Attribute }.toJson
      sparseAttribute := by
  have hadded : ∀ entry ∈ ([] : Record), isPlain entry.2 := by simp
  refine .fields hadded ⟨by simp, [("name", .text "age"), ("data_type", .text "int"),
    ("constraints", .array [sparseConstraint])], ?_, .swap _ _ _⟩
  exact .keep rfl <| .keep rfl <| .leaveOut rfl <| .leaveOut rfl <| .leaveOut rfl <| .leaveOut rfl <|
    .leaveOut rfl <| .leaveOut rfl <| .leaveOut rfl <| .leaveOut rfl <| .leaveOut rfl <|
    .keep (.items (.cons form_sparseConstraint .nil)) <| .leaveOut rfl <| .leaveOut rfl <|
    .leaveOut rfl <| .leaveOut rfl <| .leaveOut rfl <| .leaveOut rfl <| .leaveOut rfl <|
    .leaveOut rfl <| .leaveOut rfl .nil

/-- The sparse value means the same as the full one, and so does its text. -/
theorem ofText?_sparsePerson :
    Metamodel.form agedPerson.toJson sparsePerson ∧ sparsePerson.WrittenBy sparsePerson.render
      ∧ Metamodel.ofText? sparsePerson.render = some agedPerson := by
  have hclass : ClassModel.form
      { ClassModel.empty "Person" .entity with
        attributes := [{ Attribute.plain "age" "int" with constraints := [.of (.min (some 0))] }] :
        ClassModel }.toJson sparseClass := by
    have hadded : ∀ entry ∈ [("note", Json.text "people")], isPlain entry.2 := by decide
    refine .fields hadded ⟨by decide, [("name", .text "Person"), ("kind", .text "entity"),
      ("attributes", .array [sparseAttribute])], ?_, .swap _ _ _⟩
    exact .keep rfl <| .leaveOut rfl <| .keep rfl <| .leaveOut rfl <| .leaveOut rfl <| .leaveOut rfl <|
      .leaveOut rfl <| .leaveOut rfl <| .leaveOut rfl <|
      .keep (.items (.cons form_sparseAttribute .nil)) <| .leaveOut rfl <| .leaveOut rfl <|
      .leaveOut rfl <| .leaveOut rfl <| .leaveOut rfl <| .leaveOut rfl <| .leaveOut rfl <|
      .leaveOut rfl <| .leaveOut rfl .nil
  have hform : Metamodel.form agedPerson.toJson sparsePerson := by
    have hadded : ∀ entry ∈ [("draft", Json.bool true)], isPlain entry.2 := by decide
    refine .fields hadded ⟨by decide, [("package", .text "shop"), ("classes", .array [sparseClass])],
      ?_, .swap _ _ _⟩
    exact .keep rfl <| .leaveOut rfl <| .leaveOut rfl <| .leaveOut rfl <| .leaveOut rfl <|
      .keep (.items (.cons hclass .nil)) .nil
  have hwritten : sparsePerson.WrittenBy sparsePerson.render :=
    writtenBy_render (by decide)
  exact ⟨hform, hwritten, Metamodel.ofText?_of_form hform hwritten⟩

end EntityForge
