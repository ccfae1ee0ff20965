import EntityForge.Json.Record
import EntityForge.Metamodel.Writer
import Mathlib.Data.List.Forall2

/-!
# Variations of a value

The meaning of an object does not change when its fields are reordered, when fields are left out that have their
default, and when fields are added that its type does not know. A `Form` says what a value of a type may be changed
to in this way, at any depth.

Main statements: `Reads.record`, that a reader of records finds the same in each variation of an object, and
`Varies.tagged?`, that a tagged record is told apart from its kind in each of them.
-/

namespace EntityForge.Json

/-- What a value may be changed to. -/
abbrev Form :=
  Json → Json → Prop

namespace Form

/-- The value as it is. -/
def same : Form := fun v w => w = v

/-- Null as it is, and any other value changed by a form. -/
inductive nullable (form : Form) : Form
  | null : nullable form .null .null
  | value {v w : Json} (hv : v ≠ .null) (h : form v w) : nullable form v w

/-- An array with each item changed by a form. -/
inductive list (form : Form) : Form
  | items {vs ws : List Json} (h : List.Forall₂ form vs ws) : list form (.array vs) (.array ws)

end Form

/-! ## Fields -/

/-- A field of a type of records. -/
structure Field where
  name : String
  /-- The value that the field stands for when it is left out, if it may be. -/
  default : Option Json
  form : Form

namespace Field

/-- A field that has to be there. -/
def required (name : String) (form : Form) : Field :=
  { name, default := none, form }

/-- A field that stands for a value when it is left out. -/
def optional (name : String) (default : Json) (form : Form) : Field :=
  { name, default := some default, form }

/-- A field that may be null, and is when it is left out. -/
def nullable (name : String) (form : Form) : Field :=
  optional name .null form.nullable

/-- A field with an array, which is empty when it is left out. -/
def items (name : String) (form : Form) : Field :=
  optional name (.array []) form.list

/-- A flag that is off when it is left out. -/
def flag (name : String) : Field :=
  optional name (.bool false) .same

@[simp] theorem name_required (name : String) (form : Form) : (required name form).name = name := rfl

@[simp] theorem name_optional (name : String) (default : Json) (form : Form) :
    (optional name default form).name = name := rfl

@[simp] theorem name_nullable (name : String) (form : Form) : (nullable name form).name = name := rfl

@[simp] theorem name_items (name : String) (form : Form) : (items name form).name = name := rfl

@[simp] theorem name_flag (name : String) : (flag name).name = name := rfl

end Field

/-- The names of fields. -/
abbrev names (fields : List Field) : List String :=
  fields.map (·.name)

theorem names_append (front back : List Field) : names (front ++ back) = names front ++ names back :=
  List.map_append

/-- Fields of an object are changed by their forms or left out, where they have their default. -/
inductive Kept : List Field → Record → Record → Prop
  | nil : Kept [] [] []
  | keep {field : Field} {fields : List Field} {v w : Json} {full kept : Record}
      (hform : field.form v w) (rest : Kept fields full kept) :
      Kept (field :: fields) ((field.name, v) :: full) ((field.name, w) :: kept)
  | leaveOut {field : Field} {fields : List Field} {v : Json} {full kept : Record}
      (hdefault : field.default = some v) (rest : Kept fields full kept) :
      Kept (field :: fields) ((field.name, v) :: full) kept

/-- The fields of an object are changed or left out, others with unknown names are added, and all are put in any
order. -/
def Varies (fields : List Field) (full added changed : Record) : Prop :=
  (∀ entry ∈ added, entry.1 ∉ names fields)
    ∧ ∃ kept, Kept fields full kept ∧ changed.Perm (kept ++ added)

/-- Null, truth values and texts: the values that an added field may have. -/
def isPlain : Json → Bool
  | .null | .bool _ | .text _ => true
  | _ => false

/-- An object with its fields changed, left out, added and reordered. -/
inductive Form.record (fields : List Field) : Form
  | fields {full added changed : Record} (hadded : ∀ entry ∈ added, isPlain entry.2)
      (h : Varies fields full added changed) : Form.record fields (.object full) (.object changed)

/-! ## Fields that are found -/

/-- In a record that was found, the field has a value changed from `v`, or is left out where `v` is its default. -/
def Found (record : Record) (field : Field) (v : Json) : Prop :=
  match record.lookup field.name with
  | some w => field.form v w
  | none => field.default = some v

/-- All fields of an object are found in a record. -/
abbrev FoundAll (record : Record) (fields : List Field) (full : Record) : Prop :=
  List.Forall₂ (fun field (entry : String × Json) => Found record field entry.2) fields full

theorem lookup_eq_some_of_mem {record : Record} (hnodup : (record.map (·.1)).Nodup) {name : String}
    {v : Json} (h : (name, v) ∈ record) : record.lookup name = some v := by
  induction record with
  | nil => exact absurd h (by simp)
  | cons entry rest ih =>
    obtain ⟨other, w⟩ := entry
    rw [List.map_cons, List.nodup_cons] at hnodup
    rcases List.mem_cons.mp h with heq | hrest
    · cases heq
      exact List.lookup_cons_self
    · have hne : (name == other) = false := by
        rw [beq_eq_false_iff_ne]
        rintro rfl
        exact hnodup.1 (List.mem_map.mpr ⟨(name, v), hrest, rfl⟩)
      rw [List.lookup_cons, hne]
      exact ih hnodup.2 hrest

namespace Kept

variable {fields : List Field} {full kept record : Record}

theorem names_sublist (h : Kept fields full kept) : (kept.map (·.1)).Sublist (names fields) := by
  induction h with
  | nil => exact .refl _
  | keep _ _ ih => exact ih.cons_cons _
  | leaveOut _ _ ih => exact ih.cons _

/-- Each field is found in a record that has the same values under the names of the fields. -/
theorem found_of_mem_iff (h : Kept fields full kept) (hnodup : (names fields).Nodup)
    (hkeys : (record.map (·.1)).Nodup)
    (hmem : ∀ name ∈ names fields, ∀ w, (name, w) ∈ record ↔ (name, w) ∈ kept) :
    FoundAll record fields full := by
  induction h with
  | nil => exact .nil
  | @keep field fields v w full kept hform rest ih =>
    rw [names, List.map_cons, List.nodup_cons] at hnodup
    refine .cons ?_ (ih hnodup.2 fun name hname u => ?_)
    · have hlookup : record.lookup field.name = some w :=
        lookup_eq_some_of_mem hkeys ((hmem _ List.mem_cons_self w).mpr List.mem_cons_self)
      rw [Found, hlookup]
      exact hform
    · have hne : name ≠ field.name := by
        rintro rfl
        exact hnodup.1 hname
      rw [hmem name (List.mem_cons_of_mem _ hname) u, List.mem_cons, or_iff_right]
      exact fun heq => hne (congrArg Prod.fst heq)
  | @leaveOut field fields v full kept hdefault rest ih =>
    rw [names, List.map_cons, List.nodup_cons] at hnodup
    refine .cons ?_ (ih hnodup.2 fun name hname u => hmem name (List.mem_cons_of_mem _ hname) u)
    -- A value under the name would be one that was kept, but the other fields have other names.
    have hlookup : record.lookup field.name = none := by
      rw [List.lookup_eq_none_iff]
      rintro ⟨name, w⟩ hentry
      rw [bne_iff_ne]
      rintro rfl
      have hkept := (hmem _ List.mem_cons_self w).mp hentry
      exact hnodup.1 (rest.names_sublist.subset (List.mem_map.mpr ⟨_, hkept, rfl⟩))
    rw [Found, hlookup]
    exact hdefault

theorem append {front back : List Field} {full₁ full₂ kept₁ kept₂ : Record} (h₁ : Kept front full₁ kept₁)
    (h₂ : Kept back full₂ kept₂) : Kept (front ++ back) (full₁ ++ full₂) (kept₁ ++ kept₂) := by
  induction h₁ with
  | nil => exact h₂
  | keep hform _ ih => exact .keep hform ih
  | leaveOut hdefault _ ih => exact .leaveOut hdefault ih

/-- Fields in two parts are kept in two parts. -/
theorem append_inv {front back : List Field} {full₁ full₂ : Record} (hlength : front.length = full₁.length)
    (h : Kept (front ++ back) (full₁ ++ full₂) kept) :
    ∃ kept₁ kept₂, kept = kept₁ ++ kept₂ ∧ Kept front full₁ kept₁ ∧ Kept back full₂ kept₂ := by
  induction front generalizing full₁ kept with
  | nil =>
    obtain rfl := List.length_eq_zero_iff.mp hlength.symm
    exact ⟨[], kept, rfl, .nil, h⟩
  | cons field front ih =>
    cases full₁ with
    | nil => exact absurd hlength (by simp)
    | cons entry full₁ =>
      rw [List.length_cons, List.length_cons, Nat.add_right_cancel_iff] at hlength
      cases h with
      | keep hform rest =>
        obtain ⟨kept₁, kept₂, rfl, h₁, h₂⟩ := ih hlength rest
        exact ⟨_ :: kept₁, kept₂, rfl, .keep hform h₁, h₂⟩
      | leaveOut hdefault rest =>
        obtain ⟨kept₁, kept₂, rfl, h₁, h₂⟩ := ih hlength rest
        exact ⟨kept₁, kept₂, rfl, .leaveOut hdefault h₁, h₂⟩

/-- What is kept of fields that are never changed has been there before. -/
theorem sublist (h : Kept fields full kept) (hsame : ∀ field ∈ fields, ∀ v w, field.form v w → w = v) :
    kept.Sublist full := by
  induction h with
  | nil => exact .refl _
  | keep hform _ ih =>
    obtain rfl := hsame _ List.mem_cons_self _ _ hform
    exact (ih fun field hfield => hsame field (List.mem_cons_of_mem _ hfield)).cons_cons _
  | leaveOut _ _ ih =>
    exact (ih fun field hfield => hsame field (List.mem_cons_of_mem _ hfield)).cons _

end Kept

/-! ## Objects that vary -/

namespace Varies

variable {fields front back : List Field} {full full₁ full₂ added changed : Record}

/-- An object whose fields are all kept as they are. -/
theorem self (h : Kept fields full full) : Varies fields full [] full :=
  ⟨by simp, full, h, by rw [List.append_nil]⟩

/-- In a variation of an object its fields are found, each one once. -/
theorem exists_record (h : Varies fields full added changed) (hnodup : (names fields).Nodup) :
    ∃ record, (Json.object changed).record? (names fields) = some record
      ∧ FoundAll record fields full := by
  obtain ⟨hadded, kept, hkept, hperm⟩ := h
  have hfilter : (kept ++ added).filter (fun entry => (names fields).contains entry.1) = kept := by
    have hall : ∀ entry ∈ kept, (names fields).contains entry.1 = true := fun entry hentry =>
      List.contains_iff_mem.mpr (hkept.names_sublist.subset (List.mem_map_of_mem hentry))
    have hnone : ∀ entry ∈ added, ¬ (names fields).contains entry.1 = true := fun entry hentry hin =>
      hadded entry hentry (List.contains_iff_mem.mp hin)
    rw [List.filter_append, List.filter_eq_self.mpr hall, List.filter_eq_nil_iff.mpr hnone,
      List.append_nil]
  have hknown : (changed.filter fun entry => (names fields).contains entry.1).Perm kept :=
    hfilter ▸ hperm.filter _
  have hkeys : ((changed.filter fun entry => (names fields).contains entry.1).map (·.1)).Nodup :=
    (hknown.map _).nodup_iff.mpr (hkept.names_sublist.nodup hnodup)
  refine ⟨_, ?_, hkept.found_of_mem_iff hnodup hkeys fun _ _ _ => hknown.mem_iff⟩
  rw [record?]
  exact if_pos hkeys

/-- Without its front fields, an object varies in its other fields. -/
theorem drop_front (h : Varies (front ++ back) (full₁ ++ full₂) added changed)
    (hlength : front.length = full₁.length) (hnodup : (names (front ++ back)).Nodup)
    {others : String × Json → Bool} (hothers : ∀ entry, others entry = true ↔ entry.1 ∉ names front) :
    Varies back full₂ added (changed.filter others) := by
  obtain ⟨hadded, kept, hkept, hperm⟩ := h
  obtain ⟨kept₁, kept₂, rfl, h₁, h₂⟩ := hkept.append_inv hlength
  rw [names, List.map_append, List.nodup_append] at hnodup
  have hfront : kept₁.filter others = [] := by
    refine List.filter_eq_nil_iff.mpr fun entry hentry => ?_
    rw [hothers]
    exact not_not_intro (h₁.names_sublist.subset (List.mem_map_of_mem hentry))
  have hback : kept₂.filter others = kept₂ := by
    refine List.filter_eq_self.mpr fun entry hentry => ?_
    rw [hothers]
    exact fun hin => hnodup.2.2 _ hin _ (h₂.names_sublist.subset (List.mem_map_of_mem hentry)) rfl
  have hunknown : ∀ entry ∈ added, entry.1 ∉ names front ∧ entry.1 ∉ names back := by
    intro entry hentry
    have hnot := hadded entry hentry
    rw [names_append, List.mem_append, not_or] at hnot
    exact hnot
  have hrest : added.filter others = added := by
    refine List.filter_eq_self.mpr fun entry hentry => ?_
    rw [hothers]
    exact (hunknown entry hentry).1
  refine ⟨fun entry hentry => (hunknown entry hentry).2, kept₂, h₂, ?_⟩
  have hfiltered := hperm.filter others
  rwa [List.filter_append, List.filter_append, hfront, hback, hrest, List.nil_append] at hfiltered

/-- In its front fields, an object varies with whatever is in the others. -/
theorem take_front (h : Varies (front ++ back) (full₁ ++ full₂) added changed)
    (hlength : front.length = full₁.length) (hnodup : (names (front ++ back)).Nodup) :
    ∃ rest, Varies front full₁ rest changed := by
  obtain ⟨hadded, kept, hkept, hperm⟩ := h
  obtain ⟨kept₁, kept₂, rfl, h₁, h₂⟩ := hkept.append_inv hlength
  rw [names, List.map_append, List.nodup_append] at hnodup
  refine ⟨kept₂ ++ added, fun entry hentry hin => ?_, kept₁, h₁, ?_⟩
  · rcases List.mem_append.mp hentry with hentry | hentry
    · exact hnodup.2.2 _ hin _ (h₂.names_sublist.subset (List.mem_map_of_mem hentry)) rfl
    · exact hadded entry hentry (by rw [names_append]; exact List.mem_append_left _ hin)
  · rwa [List.append_assoc] at hperm

end Varies

/-! ## Readers -/

/-- What a value is written as is one of its own variations, and the value is read back from each of them, but never
from null. -/
structure Reads {α : Type} (form : Form) (write : α → Json) (read : Json → Option α) : Prop where
  self : ∀ a, form (write a) (write a)
  read_eq : ∀ {a : α} {w : Json}, form (write a) w → read w = some a
  read_null : read .null = none

namespace Reads

theorem text : Reads .same .text text? where
  self _ := rfl
  read_eq h := by rw [h]; rfl
  read_null := rfl

theorem bool : Reads .same .bool bool? where
  self _ := rfl
  read_eq h := by rw [h]; rfl
  read_null := rfl

variable {α : Type}

theorem word [Spelled α] : Reads .same (Json.word (α := α)) word? where
  self _ := rfl
  read_eq {a} _ h := by rw [h]; exact Spelled.ofWord?_spelling a
  read_null := rfl

theorem taggedWord [Spelled α] : Reads .same (Json.word (α := α)) taggedWord? where
  self _ := rfl
  read_eq {a} _ h := by rw [h]; exact Spelled.ofWord?_spelling a
  read_null := rfl

theorem integer?_int (n : Int) : (Json.int n).integer? = some n :=
  Number.toInt?_ofInt n

theorem uint32 : Reads .same (fun n : UInt32 => .int n.toNat) uint32? where
  self _ := rfl
  read_eq {n} _ h := by
    have hrange : (0 : Int) ≤ n.toNat ∧ (n.toNat : Int) < UInt32.size :=
      ⟨Int.natCast_nonneg _, by exact_mod_cast n.toNat_lt⟩
    rw [h]
    show uint32? (.int n.toNat) = some n
    rw [uint32?, integer?_int, Option.bind_eq_bind, Option.bind_some, if_pos hrange,
      Int.toNat_natCast, UInt32.ofNat_toNat]
  read_null := rfl

theorem int64 : Reads .same (fun n : Int64 => .int n.toInt) int64? where
  self _ := rfl
  read_eq {n} _ h := by
    have hrange : -0x8000000000000000 ≤ n.toInt ∧ n.toInt < 0x8000000000000000 :=
      ⟨n.le_toInt, n.toInt_lt⟩
    rw [h]
    show int64? (.int n.toInt) = some n
    rw [int64?, integer?_int, Option.bind_eq_bind, Option.bind_some, if_pos hrange,
      Int64.ofInt_toInt]
  read_null := rfl

variable {form : Form} {write : α → Json} {read : Json → Option α}

/-- No two values are written alike. -/
theorem eq_of_write_eq (h : Reads form write read) {a b : α} (heq : write a = write b) : a = b := by
  have ha : read (write b) = some a := h.read_eq (heq ▸ h.self a)
  have hb : read (write b) = some b := h.read_eq (h.self b)
  exact Option.some.inj (ha.symm.trans hb)

theorem write_ne_null (h : Reads form write read) (a : α) : write a ≠ .null := by
  intro heq
  have ha : read .null = some a := h.read_eq (heq ▸ h.self a)
  rw [h.read_null] at ha
  exact absurd ha (by simp)

/-- The items of an array are read one by one. -/
theorem mapM_eq (h : Reads form write read) {as : List α} {ws : List Json}
    (hws : List.Forall₂ form (as.map write) ws) : ws.mapM read = some as := by
  induction as generalizing ws with
  | nil =>
    cases hws
    rfl
  | cons a as ih =>
    rw [List.map_cons] at hws
    cases hws with
    | cons hhead htail =>
      rw [List.mapM_cons, h.read_eq hhead, ih htail]
      rfl

theorem list (h : Reads form write read) : Reads form.list (Json.list write) (list? read) where
  self as := by
    refine .items ?_
    induction as with
    | nil => exact .nil
    | cons a as ih => exact .cons (h.self a) ih
  read_eq hw := by
    cases hw with
    | items hws => exact h.mapM_eq hws
  read_null := rfl

theorem nullable_self (h : Reads form write read) (o : Option α) :
    form.nullable (orNull write o) (orNull write o) := by
  cases o with
  | none => exact .null
  | some a => exact .value (h.write_ne_null a) (h.self a)

/-- Something that may be absent is read where it is and where it is not. -/
theorem optional?_eq (h : Reads form write read) {o : Option α} {w : Json}
    (hw : form.nullable (orNull write o) w) : optional? read w = some o := by
  cases o with
  | none =>
    cases hw with
    | null => rfl
    | value hne _ => exact absurd rfl hne
  | some a =>
    generalize hv : orNull write (some a) = v at hw
    cases hw with
    | null => exact absurd hv (h.write_ne_null a)
    | value _ hform =>
      subst hv
      have hread : read w = some a := h.read_eq hform
      -- A variation of something that is there is not null, or it would be read as absent.
      have hne : w ≠ .null := by
        rintro rfl
        rw [h.read_null] at hread
        exact absurd hread (by simp)
      rw [optional?, hread]
      · rfl
      · exact hne

end Reads

namespace Found

variable {α : Type} {record : Record} {name : String} {form : Form} {write : α → Json}
  {read : Json → Option α}

theorem required {a : α} (h : Found record (.required name form) (write a)) (hreads : Reads form write read) :
    record.required name read = some a := by
  rw [Found, Field.name_required] at h
  rw [Record.required]
  cases hlookup : record.lookup name with
  | none =>
    rw [hlookup] at h
    exact absurd h (by simp [Field.required])
  | some w =>
    rw [hlookup] at h
    exact hreads.read_eq h

/-- A field that may be left out is read as what was written or as its default, whichever way `read` reads it. -/
theorem optional_of_read {a default : α} {v d : Json} (h : Found record (.optional name d form) v)
    (hread : ∀ {w}, form v w → read w = some a) (hdefault : v = d → a = default) :
    record.optional name default read = some a := by
  rw [Found, Field.name_optional] at h
  rw [Record.optional]
  cases hlookup : record.lookup name with
  | none =>
    rw [hlookup] at h
    rw [hdefault (Option.some.inj h).symm]
  | some w =>
    rw [hlookup] at h
    exact hread h

theorem optional {a default : α} (h : Found record (.optional name (write default) form) (write a))
    (hreads : Reads form write read) : record.optional name default read = some a :=
  h.optional_of_read hreads.read_eq hreads.eq_of_write_eq

theorem nullable {o : Option α} (h : Found record (.nullable name form) (orNull write o))
    (hreads : Reads form write read) : record.nullable name read = some o := by
  refine h.optional_of_read hreads.optional?_eq fun heq => ?_
  cases o with
  | none => rfl
  | some a => exact absurd heq (hreads.write_ne_null a)

theorem items {as : List α} (h : Found record (.items name form) (Json.list write as))
    (hreads : Reads form write read) : record.items name read = some as := by
  have hlist : Found record (.optional name (Json.list write []) form.list) (Json.list write as) := h
  exact hlist.optional hreads.list

theorem flag {b : Bool} (h : Found record (.flag name) (.bool b)) : record.flag name = some b :=
  h.optional .bool

end Found

/-- **Records.** A reader that finds a record in an object, and builds a value from the fields that are found in it,
finds the same in each variation of that object. -/
theorem Reads.record {α : Type} {fields : List Field} {fieldNames : List String} {toFields : α → Record}
    {build : Record → Option α} (hnames : names fields = fieldNames) (hnodup : fieldNames.Nodup)
    (hself : ∀ a, Kept fields (toFields a) (toFields a))
    (hbuild : ∀ (a : α) (record : Record), FoundAll record fields (toFields a) → build record = some a) :
    Reads (.record fields) (fun a => .object (toFields a)) (fun v => v.record? fieldNames >>= build) where
  self a := .fields (by simp) (.self (hself a))
  read_eq h := by
    subst hnames
    cases h with
    | fields _ h =>
      obtain ⟨record, hrecord, hfound⟩ := h.exists_record hnodup
      rw [hrecord]
      exact hbuild _ record hfound
  read_null := rfl

/-- A record of one field that may be null. -/
theorem Reads.one {α : Type} {form : Form} {write : α → Json} {read : Json → Option α}
    (h : Reads form write read) (name : String) :
    Reads (.record [.nullable name form]) (fun o => .object [(name, orNull write o)])
      (fun v => v.record? [name] >>= fun record => record.nullable name read) := by
  refine .record rfl (by simp) (fun o => .keep (h.nullable_self o) .nil) fun o record hfound => ?_
  simp only [List.forall₂_cons] at hfound
  exact hfound.1.nullable h

/-- What is built from the one field of a record. -/
theorem Reads.one_map {α β : Type} {form : Form} {write : α → Json} {read : Json → Option α}
    (h : Reads form write read) {name : String} {o : Option α} {w : Json}
    (hw : Form.record [.nullable name form] (.object [(name, orNull write o)]) w) (f : Option α → β) :
    (w.record? [name] >>= fun record => (record.nullable name read).map f) = some (f o) := by
  obtain ⟨record, hrecord, ho⟩ := Option.bind_eq_some_iff.mp ((h.one name).read_eq hw)
  rw [hrecord]
  show (record.nullable name read).map f = some (f o)
  rw [ho]
  rfl

/-- A record of two fields that may be null. -/
theorem Reads.two {α β : Type} {form form' : Form} {write : α → Json} {write' : β → Json}
    {read : Json → Option α} {read' : Json → Option β} (h : Reads form write read)
    (h' : Reads form' write' read') {name name' : String} (hne : name ≠ name') :
    Reads (.record [.nullable name form, .nullable name' form'])
      (fun p => .object [(name, orNull write p.1), (name', orNull write' p.2)])
      (fun v => v.record? [name, name'] >>= fun record => do
        let a ← record.nullable name read
        let b ← record.nullable name' read'
        pure (a, b)) := by
  refine .record rfl (by simpa using hne)
    (fun p => .keep (h.nullable_self p.1) (.keep (h'.nullable_self p.2) .nil)) fun p record hfound => ?_
  simp only [List.forall₂_cons] at hfound
  obtain ⟨hfirst, hsecond, -⟩ := hfound
  rw [hfirst.nullable h, hsecond.nullable h']
  rfl

end EntityForge.Json
