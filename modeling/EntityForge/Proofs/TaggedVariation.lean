import EntityForge.Proofs.Variation

/-!
# Variations of a tagged record

The fields of a tagged record depend on its kind, which stands in a field of its own anywhere among the others. Its
reader takes the kind out first and sets the other fields aside, so they have to be values that can be kept.

Main statements: `keepable_int`, that every integer below 2^64 can be kept, and `Reads.tagged`, that a tagged record is
read the same in each variation.
-/

namespace EntityForge.Json

/-! ## Integers that are kept -/

namespace Magnitude

theorem le_ofDigitChars (n : Nat) (digits : List Char) : n ≤ Nat.ofDigitChars 10 digits n := by
  rw [Nat.ofDigitChars_eq_ofDigitChars_zero]
  have hpos : 0 < 10 ^ digits.length := Nat.pow_pos (by decide)
  have hmul : n ≤ 10 ^ digits.length * n := Nat.le_mul_of_pos_left n hpos
  omega

/-- Digits that fit a word are taken in completely. -/
theorem takeWhole_of_lt {magnitude : Magnitude} {digits : List Char}
    (h : Nat.ofDigitChars 10 digits magnitude.significand < wordLimit) :
    magnitude.takeWhole digits
      = { magnitude with significand := Nat.ofDigitChars 10 digits magnitude.significand } := by
  induction digits generalizing magnitude with
  | nil => rw [takeWhole, Nat.ofDigitChars_nil]
  | cons digit rest ih =>
    have hnext : Nat.ofDigitChars 10 (digit :: rest) magnitude.significand
        = Nat.ofDigitChars 10 rest (appended magnitude.significand digit) := by
      rw [Nat.ofDigitChars_cons, appended, Nat.mul_comm]
    rw [hnext] at h ⊢
    have hfits : appended magnitude.significand digit < wordLimit :=
      Nat.lt_of_le_of_lt (le_ofDigitChars _ rest) h
    rw [takeWhole, if_pos hfits]
    exact ih h

/-- A word of 64 bits is rounded to less than a bit more. -/
theorem nearest_lt {n : Nat} (h : n < wordLimit) : nearest n < 2 * wordLimit := by
  have hspacing : spacing n ≤ 2 ^ 12 := by
    rw [spacing, Nat.one_shiftLeft]
    refine Nat.pow_le_pow_right (by decide) ?_
    by_cases hn : n = 0
    · rw [hn]
      decide
    · have hlog : n.log2 < 64 := (Nat.log2_lt hn).mpr h
      omega
  have hle := nearest_le n
  rw [wordLimit, UInt64.size] at *
  omega

/-- Without a scale, what fits a word is in the range. -/
theorem outOfRange_of_lt {n : Nat} (h : n < wordLimit) : outOfRange ⟨n, 0⟩ = false := by
  have hone : nearest (Nat.pow 10 (0 : Int).toNat) = 1 := nearest_of_lt (by decide)
  have hlimit : 2 * wordLimit ≤ limit := by decide +kernel
  have hlt := nearest_lt h
  show (if n = 0 ∨ (0 : Int) < 0 then false else if scaleLimit < 0 then true
    else decide (limit ≤ nearest n * nearest (Nat.pow 10 (0 : Int).toNat))) = false
  split
  · rfl
  · rw [if_neg (by decide), hone, Nat.mul_one, decide_eq_false_iff_not]
    omega

end Magnitude

theorem outOfRange_ofInt {n : Int} (h : n.natAbs < Magnitude.wordLimit) :
    (Number.ofInt n).outOfRange = false := by
  have hdigits : Nat.ofDigitChars 10 (Nat.toDigits 10 n.natAbs) 0 = n.natAbs :=
    Nat.ofDigitChars_ten_toDigits
  have hwhole : (Magnitude.mk 0 0).takeWhole (Nat.toDigits 10 n.natAbs) = ⟨n.natAbs, 0⟩ := by
    rw [Magnitude.takeWhole_of_lt (by rw [hdigits]; exact h), hdigits]
  have hmagnitude : (Number.ofInt n).magnitude = ⟨n.natAbs, 0⟩ := by
    simp [Number.magnitude, Number.ofInt, hwhole, Magnitude.takeFraction]
  rw [Number.outOfRange, hmagnitude]
  exact Magnitude.outOfRange_of_lt h

/-- Every integer below 2^64 can be kept. -/
theorem keepable_int (room : Nat) {n : Int} (h : n.natAbs < Magnitude.wordLimit) :
    keepable room (.int n) = true := by
  rw [Json.int, keepable, outOfRange_ofInt h]
  rfl

/-! ## Values that are kept -/

theorem keepable_of_isPlain {room : Nat} {v : Json} (h : isPlain v) : keepable room v = true := by
  cases v <;> first | rfl | exact absurd h (by simp [isPlain])

theorem keepable_orNull {α : Type} {room : Nat} {write : α → Json} (h : ∀ a, keepable room (write a))
    (o : Option α) : keepable room (orNull write o) = true := by
  cases o with
  | none => rfl
  | some a => exact h a

@[simp] theorem keepable_orNull_text (room : Nat) (o : Option String) :
    keepable room (orNull .text o) = true :=
  keepable_orNull (fun _ => rfl) o

@[simp] theorem keepable_orNull_bool (room : Nat) (o : Option Bool) :
    keepable room (orNull .bool o) = true :=
  keepable_orNull (fun _ => rfl) o

@[simp] theorem keepable_orNull_word {α : Type} [Spelled α] (room : Nat) (o : Option α) :
    keepable room (orNull word o) = true :=
  keepable_orNull (fun _ => rfl) o

@[simp] theorem keepable_orNull_uint32 (room : Nat) (o : Option UInt32) :
    keepable room (orNull (fun n => .int n.toNat) o) = true := by
  refine keepable_orNull (fun n => keepable_int room ?_) o
  have hlt : n.toNat < 2 ^ 32 := n.toNat_lt
  rw [Int.natAbs_natCast, Magnitude.wordLimit, UInt64.size]
  omega

@[simp] theorem keepable_orNull_int64 (room : Nat) (o : Option Int64) :
    keepable room (orNull (fun n => .int n.toInt) o) = true := by
  refine keepable_orNull (fun n => keepable_int room ?_) o
  have hle := n.le_toInt
  have hlt := n.toInt_lt
  rw [Magnitude.wordLimit, UInt64.size]
  omega

theorem itemsKeepable_iff {room : Nat} {items : List Json} :
    itemsKeepable room items = true ↔ ∀ item ∈ items, keepable room item = true := by
  induction items with
  | nil => simp [itemsKeepable]
  | cons item rest ih => simp [itemsKeepable, ih]

theorem fieldsKeepable_iff {room : Nat} {fields : Record} :
    fieldsKeepable room fields = true ↔ ∀ entry ∈ fields, keepable room entry.2 = true := by
  induction fields with
  | nil => simp [fieldsKeepable]
  | cons entry rest ih => simp [fieldsKeepable, ih]

/-- Words in an array can be kept where there is room for the array. -/
theorem keepable_list_word {α : Type} [Spelled α] {room : Nat} (hroom : 0 < room) (as : List α) :
    keepable room (Json.list word as) = true := by
  rw [Json.list, keepable, Bool.and_eq_true, itemsKeepable_iff]
  refine ⟨decide_eq_true hroom, fun item hitem => ?_⟩
  obtain ⟨a, -, rfl⟩ := List.mem_map.mp hitem
  rfl

/-! ## Fields that are never changed -/

/-- A field whose value may not be changed in itself. -/
def Field.IsFixed (field : Field) : Prop :=
  ∀ v w, field.form v w → w = v

theorem Field.isFixed_nullable_same (name : String) : (nullable name .same).IsFixed := by
  intro v w h
  cases h with
  | null => rfl
  | value _ h => exact h

theorem Form.eq_of_forall₂_same {vs ws : List Json} (h : List.Forall₂ Form.same vs ws) : ws = vs := by
  induction h with
  | nil => rfl
  | cons hhead _ ih => rw [hhead, ih]

theorem Field.isFixed_items_same (name : String) : (items name .same).IsFixed := by
  intro v w h
  cases h with
  | items h => rw [Form.eq_of_forall₂_same h]

/-! ## Kinds -/

/-- The field that holds a kind. -/
def Field.kind (kind : String) : Field :=
  .required "kind" fun v w => v = .text kind ∧ w = v

@[simp] theorem Field.name_kind (kind : String) : (Field.kind kind).name = "kind" := rfl

theorem Field.isFixed_kind (kind : String) : (Field.kind kind).IsFixed := fun _ _ h => h.2

/-- A tagged record: an object with some fields of its own, its kind, and the options of that kind. -/
inductive Form.tagged (own : List Field) (options : String → List Field) : Form
  | kind {v w : Json} (kind : String) (h : Form.record (own ++ .kind kind :: options kind) v w) :
      Form.tagged own options v w

/-- The kind of a tagged record is that of the object it is a variation of. -/
theorem Form.tagged.exists_varies {own : List Field} {options : String → List Field} {kind : String}
    {full₁ full₂ : Record} {w : Json}
    (h : Form.tagged own options (.object (full₁ ++ ("kind", .text kind) :: full₂)) w)
    (hlength : own.length = full₁.length) :
    ∃ added changed, w = .object changed ∧ (∀ entry ∈ added, isPlain entry.2)
      ∧ Varies (own ++ .kind kind :: options kind) (full₁ ++ ("kind", .text kind) :: full₂) added
        changed := by
  cases h with
  | kind other h =>
    cases h with
    | fields hadded h =>
      -- The kind may not be left out, and its field allows no other word.
      have hother : kind = other := by
        obtain ⟨-, kept, hkept, -⟩ := h
        obtain ⟨_, _, _, _, hback⟩ := hkept.append_inv hlength
        cases hback with
        | keep hform _ => exact Json.text.inj hform.1
        | leaveOut hdefault _ => exact absurd hdefault (by simp [Field.kind, Field.required])
      exact ⟨_, _, rfl, hadded, hother ▸ h⟩

namespace Varies

variable {kind : String} {options : List Field} {full added changed : Record}

/-- Only one entry of a tagged record has its kind. -/
theorem sole?_kind (h : Varies (.kind kind :: options) (("kind", .text kind) :: full) added changed)
    (hkind : "kind" ∉ names options) : sole? "kind" changed = some (.text kind) := by
  obtain ⟨hadded, kept, hkept, hperm⟩ := h
  cases hkept with
  | leaveOut hdefault _ => exact absurd hdefault (by simp [Field.kind, Field.required])
  | @keep _ _ _ w _ kept hform rest =>
    obtain ⟨-, rfl⟩ := hform
    have hkept : kept.filter (·.1 == "kind") = [] := by
      refine List.filter_eq_nil_iff.mpr fun entry hentry heq => hkind ?_
      rw [← beq_iff_eq.mp heq]
      exact rest.names_sublist.subset (List.mem_map_of_mem hentry)
    have hrest : added.filter (·.1 == "kind") = [] := by
      refine List.filter_eq_nil_iff.mpr fun entry hentry heq => hadded entry hentry ?_
      rw [beq_iff_eq.mp heq]
      exact List.mem_cons_self
    have hfilter := hperm.filter (·.1 == "kind")
    rw [List.cons_append, List.filter_cons_of_pos (by rfl), List.filter_append, hkept, hrest] at hfilter
    rw [sole?, List.perm_singleton.mp hfilter]

/-- Without its kind, a tagged record is a variation of its options. -/
theorem drop_kind (h : Varies (.kind kind :: options) (("kind", .text kind) :: full) added changed)
    (hnodup : (names (.kind kind :: options)).Nodup) :
    Varies options full added (changed.filter (·.1 != "kind")) := by
  have hfront : Varies ([.kind kind] ++ options) ([("kind", .text kind)] ++ full) added changed := h
  exact hfront.drop_front rfl hnodup (by simp)

/-- What is in a variation can be kept if all could be kept before and nothing is changed in itself. -/
theorem fieldsKeepable_eq {fields : List Field} {room : Nat} (h : Varies fields full added changed)
    (hfixed : ∀ field ∈ fields, field.IsFixed) (hadded : ∀ entry ∈ added, isPlain entry.2)
    (hfull : ∀ entry ∈ full, keepable room entry.2) : fieldsKeepable room changed = true := by
  obtain ⟨-, kept, hkept, hperm⟩ := h
  rw [fieldsKeepable_iff]
  intro entry hentry
  rcases List.mem_append.mp (hperm.mem_iff.mp hentry) with hentry | hentry
  · exact hfull entry ((hkept.sublist hfixed).subset hentry)
  · exact keepable_of_isPlain (hadded entry hentry)

end Varies

/-- **Tagged records.** A reader that takes the kind out of an object, and builds a value from what is left, finds
the same in each variation of that object. -/
theorem Reads.tagged {α : Type} {options : String → List Field} {kindOf : α → String}
    {toOptions : α → Record} {build : String → Json → Option α} {room : Nat} (hroom : 0 < room)
    (hnodup : ∀ a, (names (.kind (kindOf a) :: options (kindOf a))).Nodup)
    (hfixed : ∀ a, ∀ field ∈ options (kindOf a), field.IsFixed)
    (hkeep : ∀ a, ∀ entry ∈ toOptions a, keepable (room - 1) entry.2)
    (hself : ∀ a, Kept (options (kindOf a)) (toOptions a) (toOptions a))
    (hbuild : ∀ (a : α) (rest : Json), Form.record (options (kindOf a)) (.object (toOptions a)) rest →
      build (kindOf a) rest = some a) :
    Reads (.tagged [] options) (fun a => .object (("kind", .text (kindOf a)) :: toOptions a))
      (fun v => v.tagged? room >>= fun r => build r.1 r.2) where
  self a := .kind (kindOf a) (.fields (by simp) (.self (.keep ⟨rfl, rfl⟩ (hself a))))
  read_eq {a w} h := by
    have htagged : Form.tagged [] options
        (.object ([] ++ ("kind", .text (kindOf a)) :: toOptions a)) w := h
    obtain ⟨added, changed, rfl, hadded, h⟩ := htagged.exists_varies rfl
    have hkind : "kind" ∉ names (options (kindOf a)) := (List.nodup_cons.mp (hnodup a)).1
    have hrest := h.drop_kind (hnodup a)
    have hcond : (decide (0 < room) && fieldsKeepable (room - 1)
        (changed.filter (·.1 != "kind"))) = true := by
      rw [hrest.fieldsKeepable_eq (hfixed a) hadded (hkeep a), decide_eq_true hroom]
      rfl
    have hread : (Json.object changed).tagged? room
        = some (kindOf a, .object (changed.filter (·.1 != "kind"))) := by
      rw [tagged?, h.sole?_kind hkind]
      exact if_pos hcond
    show ((Json.object changed).tagged? room >>= fun r => build r.1 r.2) = some a
    rw [hread]
    exact hbuild a _ (.fields hadded hrest)
  read_null := rfl

end EntityForge.Json
