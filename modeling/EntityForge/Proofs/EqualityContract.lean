import EntityForge.Proofs.Ancestry
import EntityForge.Proofs.Evaluation
import EntityForge.Proofs.FieldMemo
import EntityForge.Proofs.MethodReading

/-!
# The contract of equality and hash codes

Generated `equals` methods compare the members one by one and generated `hashCode` methods mix them one by one. Both tell
from the type of a member how to go about it, and do so in agreement: values that do not differ contribute the same to a
hash code. So equal objects have equal hash codes, provided that whatever is hashed is also compared.

What is run is what is read from the texts of the two bodies. It is assumed that the methods may access the fields that
they name, of the object itself and of the other one, also where a superclass declares them: access modifiers play no
part when a method is run.

Main statement: `equals_agrees_with_hashCode`.
-/

namespace EntityForge

open Java

variable {F D R K : Type}

/-! ## Comparing and hashing one field -/

namespace Java

variable {rt : Runtime F D R K} {frame : Frame F D R K} {other : Instance F D R K} {shape : Shape}
  {name : String} {v w : FieldValue F D R}

/-- The operator on primitive values of one type tells whether they are different. -/
theorem FieldValue.unequal?_of_primitive {type : Primitive} (hv : v.OfShape (.primitive type))
    (hw : w.OfShape (.primitive type)) : ∃ b, v.unequal? w = some b ∧ (b = true ↔ v ≠ w) := by
  cases hv with
  | boolean a =>
    cases hw with
    | boolean b => exact ⟨a != b, rfl, by simp⟩
  | byte n =>
    cases hw with
    | byte m => exact ⟨n.toInt != m.toInt, rfl, by simp [BitVec.toInt_inj]⟩
  | char n =>
    cases hw with
    | char m =>
      refine ⟨(n.toNat : Int) != m.toNat, rfl, ?_⟩
      rw [bne_iff_ne, ne_eq, Int.natCast_inj, BitVec.toNat_inj, ne_eq, FieldValue.char.injEq]
  | short n =>
    cases hw with
    | short m => exact ⟨n.toInt != m.toInt, rfl, by simp [BitVec.toInt_inj]⟩
  | int n =>
    cases hw with
    | int m => exact ⟨n.toInt != m.toInt, rfl, by simp [BitVec.toInt_inj]⟩
  | long n =>
    cases hw with
    | long m => exact ⟨n.toInt != m.toInt, rfl, by simp [BitVec.toInt_inj]⟩

theorem eval_this (hthis : frame.this.field name = some v) :
    (Expression.this name).eval rt frame = some v :=
  hthis

theorem eval_other (hother : frame.other = some other) (hfield : other.field name = some w) :
    (Expression.other name).eval rt frame = some w := by
  show (frame.other >>= fun o => o.field name) = some w
  rw [hother]
  exact hfield

/-- The condition on a field says whether its values differ. -/
theorem eval_differs (rt : Runtime F D R K) (hother : frame.other = some other)
    (hthis : frame.this.field name = some v) (hfield : other.field name = some w)
    (hv : v.OfShape shape) (hw : w.OfShape shape) :
    ∃ b, (shape.differs name).eval rt frame = some (.boolean b)
      ∧ (b = true ↔ rt.Differ shape v w) := by
  have hleft : (Expression.this name).eval rt frame = some v := eval_this hthis
  have hright : (Expression.other name).eval rt frame = some w := eval_other hother hfield
  cases shape with
  | primitive type =>
    obtain ⟨b, hb, hiff⟩ := FieldValue.unequal?_of_primitive hv hw
    refine ⟨b, ?_, hiff⟩
    simp [Shape.differs, Expression.eval, hleft, hright, hb]
  | floating type =>
    cases hv with
    | float x =>
      cases hw with
      | float y =>
        refine ⟨(rt.floatToIntBits x).toInt != (rt.floatToIntBits y).toInt, ?_, ?_⟩
        · simp [Shape.differs, Expression.eval, hleft, hright, Runtime.unary?, Floating.bitsMethod,
            FieldValue.unequal?, FieldValue.integer?]
        · simp [Runtime.Differ, BitVec.toInt_inj]
    | double x =>
      cases hw with
      | double y =>
        refine ⟨(rt.doubleToLongBits x).toInt != (rt.doubleToLongBits y).toInt, ?_, ?_⟩
        · simp [Shape.differs, Expression.eval, hleft, hright, Runtime.unary?, Floating.bitsMethod,
            FieldValue.unequal?, FieldValue.integer?]
        · simp [Runtime.Differ, BitVec.toInt_inj]
  | array nested =>
    cases nested with
    | false =>
      refine ⟨!rt.arraysEquals v w, ?_, by simp [Runtime.Differ]⟩
      simp [Shape.differs, Shape.equalsMethod, Expression.eval, hleft, hright, Runtime.binary?]
    | true =>
      refine ⟨!rt.arraysDeepEquals v w, ?_, by simp [Runtime.Differ]⟩
      simp [Shape.differs, Shape.equalsMethod, Expression.eval, hleft, hright, Runtime.binary?]
  | object =>
    refine ⟨!rt.objectsEquals v w, ?_, by simp [Runtime.Differ]⟩
    simp [Shape.differs, Shape.equalsMethod, Expression.eval, hleft, hright, Runtime.binary?]

/-- The term of a field is what its value contributes to a hash code. -/
theorem eval_hashTerm (rt : Runtime F D R K) (hthis : frame.this.field name = some v)
    (hv : v.OfShape shape) :
    ∃ u, (shape.hashTerm name).eval rt frame = some u ∧ u.int? = some (rt.hashOf shape v) := by
  have hleft : (Expression.this name).eval rt frame = some v := eval_this hthis
  cases hv with
  | boolean b =>
    refine ⟨.int (if b then 1 else 0), ?_, ?_⟩
    · simp [Shape.hashTerm, Expression.eval, hleft]
    · simp [FieldValue.int?, FieldValue.integer?, Runtime.hashOf]
  | long n =>
    refine ⟨.int (foldBits n), ?_, ?_⟩
    · simp [Shape.hashTerm, Expression.eval, hleft]
    · simp [FieldValue.int?, FieldValue.integer?, Runtime.hashOf]
  | float x =>
    refine ⟨.int (rt.floatToIntBits x), ?_, ?_⟩
    · simp [Shape.hashTerm, Expression.eval, hleft, Runtime.unary?, Floating.bitsMethod]
    · simp [FieldValue.int?, FieldValue.integer?, Runtime.hashOf]
  | double x =>
    refine ⟨.int (foldBits (rt.doubleToLongBits x)), ?_, ?_⟩
    · simp [Shape.hashTerm, Expression.eval, hleft, Runtime.unary?, Floating.bitsMethod]
    · simp [FieldValue.int?, FieldValue.integer?, Runtime.hashOf]
  | array nested =>
    refine ⟨.int (rt.hashOf (.array nested) v), ?_, by simp [FieldValue.int?, FieldValue.integer?]⟩
    cases nested <;>
      simp [Shape.hashTerm, Shape.hashMethod, Expression.eval, hleft, Runtime.unary?, Runtime.hashOf]
  | object =>
    refine ⟨.int (rt.hashOf .object v), ?_, by simp [FieldValue.int?, FieldValue.integer?]⟩
    simp [Shape.hashTerm, Shape.hashMethod, Expression.eval, hleft, Runtime.unary?, Runtime.hashOf]
  -- Smaller numbers are added as they are.
  | byte n => exact ⟨.byte n, hleft, rfl⟩
  | char n => exact ⟨.char n, hleft, rfl⟩
  | short n => exact ⟨.short n, hleft, rfl⟩
  | int n => exact ⟨.int n, hleft, rfl⟩

end Java

/-! ## Comparing and hashing members -/

section Members

variable {rt : Runtime F D R K} {frame : Frame F D R K} {this other : Instance F D R K}
  {members : List Member}

/-- The object has a value of the right shape for the member. -/
def Java.Instance.Has (o : Instance F D R K) (m : Member) : Prop :=
  ∃ v, o.field m.name = some v ∧ v.OfShape m.shape

/-- The comparison of the member reports no difference between the two objects. -/
def Java.Runtime.Agree (rt : Runtime F D R K) (this other : Instance F D R K) (m : Member) : Prop :=
  ∃ v w, this.field m.name = some v ∧ other.field m.name = some w ∧ ¬ rt.Differ m.shape v w

/-- What the members of an object make of a hash code. -/
def Java.Runtime.digest (rt : Runtime F D R K) (multiplier : Nat) (o : Instance F D R K)
    (hash : BitVec 32) : List Member → Option (BitVec 32)
  | [] => some hash
  | m :: rest => do
    let mixed := BitVec.ofNat 32 multiplier * hash + rt.hashOf m.shape (← o.field m.name)
    rt.digest multiplier o mixed rest

/-- The statement that compares a member returns false if its comparison reports a difference, and otherwise changes
nothing. -/
theorem step_differs [DecidableEq K] (rt : Runtime F D R K) {m : Member}
    (hother : frame.other = some other) (hthis : frame.this.Has m) (hhas : other.Has m) :
    (rt.Agree frame.this other m
        ∧ (Statement.refuseIf (.holds (m.shape.differs m.name))).step rt frame = some (.next frame))
      ∨ (¬ rt.Agree frame.this other m
        ∧ (Statement.refuseIf (.holds (m.shape.differs m.name))).step rt frame
          = some (.returns (.boolean false))) := by
  obtain ⟨v, hv, hvshape⟩ := hthis
  obtain ⟨w, hw, hwshape⟩ := hhas
  obtain ⟨b, hb, hiff⟩ := eval_differs rt hother hv hw hvshape hwshape
  have hagree : rt.Agree frame.this other m ↔ ¬ rt.Differ m.shape v w := by
    constructor
    · rintro ⟨v', w', hv', hw', h⟩
      rw [hv, Option.some.injEq] at hv'
      rw [hw, Option.some.injEq] at hw'
      rw [hv', hw']
      exact h
    · intro h
      exact ⟨v, w, hv, hw, h⟩
  rw [hagree, ← hiff]
  cases b with
  | false => exact Or.inl ⟨by simp, by simp [Statement.step, Condition.eval, hb]⟩
  | true => exact Or.inr ⟨by simp, by simp [Statement.step, Condition.eval, hb]⟩

/-- Comparing the members one by one returns true exactly when none reports a difference. -/
theorem runBody_comparisons [DecidableEq K] (hother : frame.other = some other)
    (hthis : ∀ m ∈ members, frame.this.Has m) (hhas : ∀ m ∈ members, other.Has m) :
    ∃ b, runBody rt frame
          (members.map (fun m => .refuseIf (.holds (m.shape.differs m.name))) ++ [.returnTrue])
        = some (.boolean b)
      ∧ (b = true ↔ ∀ m ∈ members, rt.Agree frame.this other m) := by
  induction members with
  | nil => exact ⟨true, rfl, by simp⟩
  | cons m rest ih =>
    obtain ⟨hthism, hthisrest⟩ := List.forall_mem_cons.mp hthis
    obtain ⟨hhasm, hhasrest⟩ := List.forall_mem_cons.mp hhas
    obtain ⟨b, hb, hiff⟩ := ih hthisrest hhasrest
    rw [List.map_cons, List.cons_append, List.forall_mem_cons]
    rcases step_differs rt hother hthism hhasm with ⟨hagree, hstep⟩ | ⟨hagree, hstep⟩
    · refine ⟨b, ?_, ?_⟩
      · rw [runBody_of_next hstep, hb]
      · rw [hiff]
        exact ⟨fun h => ⟨hagree, h⟩, fun h => h.2⟩
    · refine ⟨false, runBody_of_returns hstep, ?_⟩
      simp [hagree]

/-- Mixing the members one by one gives their digest. -/
theorem runBody_mixing [DecidableEq K] {multiplier : Nat} {hash : BitVec 32}
    (hhash : frame.hash = some hash) (hthis : ∀ m ∈ members, frame.this.Has m) :
    ∃ digest, rt.digest multiplier frame.this hash members = some digest
      ∧ runBody rt frame
          (members.map (fun m => .mixHash multiplier (m.shape.hashTerm m.name)) ++ [.returnHash])
        = some (.int digest) := by
  induction members generalizing frame hash with
  | nil =>
    refine ⟨hash, rfl, ?_⟩
    simp [runBody, Statement.step, hhash]
  | cons m rest ih =>
    obtain ⟨⟨v, hv, hvshape⟩, hthisrest⟩ := List.forall_mem_cons.mp hthis
    obtain ⟨u, hu, huint⟩ := eval_hashTerm rt hv hvshape
    let mixed := BitVec.ofNat 32 multiplier * hash + rt.hashOf m.shape v
    have hstep : (Statement.mixHash multiplier (m.shape.hashTerm m.name)).step rt frame
        = some (.next { frame with hash := some mixed }) := by
      simp [Statement.step, hhash, hu, huint, mixed]
    have hmixed : ({ frame with hash := some mixed } : Frame F D R K).hash = some mixed := rfl
    obtain ⟨digest, hdigest, hrun⟩ := ih hmixed hthisrest
    refine ⟨digest, ?_, ?_⟩
    · rw [Runtime.digest, hv]
      exact hdigest
    · rw [List.map_cons, List.cons_append, runBody_of_next hstep, hrun]

/-- Objects that agree on members have one digest of them. -/
theorem digest_eq_of_agree {multiplier : Nat} {hash : BitVec 32}
    (hthis : ∀ m ∈ members, this.Has m) (hother : ∀ m ∈ members, other.Has m)
    (hagree : ∀ m ∈ members, rt.Agree this other m) :
    rt.digest multiplier other hash members = rt.digest multiplier this hash members := by
  induction members generalizing hash with
  | nil => rfl
  | cons m rest ih =>
    obtain ⟨⟨v, hv, hvshape⟩, hthisrest⟩ := List.forall_mem_cons.mp hthis
    obtain ⟨⟨w, hw, hwshape⟩, hotherrest⟩ := List.forall_mem_cons.mp hother
    obtain ⟨⟨v', w', hv', hw', hdiffer⟩, hagreerest⟩ := List.forall_mem_cons.mp hagree
    rw [hv, Option.some.injEq] at hv'
    rw [hw, Option.some.injEq] at hw'
    rw [← hv', ← hw'] at hdiffer
    have hhash := rt.hashOf_eq_of_not_differ hvshape hwshape hdiffer
    rw [Runtime.digest, Runtime.digest, hv, hw]
    show rt.digest multiplier other (_ + rt.hashOf m.shape w) rest
      = rt.digest multiplier this (_ + rt.hashOf m.shape v) rest
    rw [← hhash]
    exact ih hthisrest hotherrest hagreerest

end Members

/-! ## The bodies of the methods -/

section Bodies

variable [DecidableEq K] {rt : Runtime F D R K} {this : Instance F D R K}
  {obj : Option (Instance F D R K)} {input : MethodInput} {className : String}

/-- The body of `equals` tells whether the object is of the same class and agrees on all members. -/
theorem runBody_equals (hpre : input.pre = none) (hpost : input.post = none)
    (hclass : rt.isSubclass this.type className = true) (hthis : ∀ m ∈ input.members, this.Has m)
    (hobj : ∀ other ∈ obj, other.type = this.type → ∀ m ∈ input.members, other.Has m) :
    ∃ b, runBody rt (.ofEquals this obj) (input.equalsStatements className) = some (.boolean b)
      ∧ (b = true ↔ ∃ other, obj = some other ∧ other.type = this.type
        ∧ ∀ m ∈ input.members, rt.Agree this other m) := by
  have hbody : input.equalsStatements className
      = .refuseIf .isNull :: .refuseIf .otherClass :: .castOther className
        :: (input.members.map (fun m => .refuseIf (.holds (m.shape.differs m.name)))
          ++ [.returnTrue]) := by
    simp [MethodInput.equalsStatements, MethodInput.preStatements, MethodInput.postStatements, hpre,
      hpost]
  rw [hbody]
  cases obj with
  | none =>
    refine ⟨false, runBody_of_returns rfl, ?_⟩
    simp
  | some other =>
    rw [runBody_of_next rfl]
    by_cases htype : other.type = this.type
    · have hsame : (Statement.refuseIf .otherClass).step rt (.ofEquals this (some other))
          = some (.next (.ofEquals this (some other))) := by
        simp [Statement.step, Condition.eval, Frame.ofEquals, htype]
      have hcast : (Statement.castOther className).step rt (.ofEquals this (some other))
          = some (.next (.ofCast this other)) := by
        simp [Statement.step, Frame.ofCast, Frame.ofEquals, htype, hclass]
      rw [runBody_of_next hsame, runBody_of_next hcast]
      have hother : (Frame.ofCast this other).other = some other := rfl
      obtain ⟨b, hb, hiff⟩ := runBody_comparisons hother hthis (hobj other rfl htype)
      refine ⟨b, hb, hiff.trans ?_⟩
      constructor
      · intro h
        exact ⟨other, rfl, htype, h⟩
      · rintro ⟨found, hfound, -, h⟩
        rw [Option.some.inj hfound]
        exact h
    · have hdiffers : (Statement.refuseIf .otherClass).step rt (.ofEquals this (some other))
          = some (.returns (.boolean false)) := by
        simp [Statement.step, Condition.eval, Frame.ofEquals, Ne.symm htype]
      refine ⟨false, runBody_of_returns hdiffers, ?_⟩
      constructor
      · intro h
        exact absurd h (by simp)
      · rintro ⟨found, hfound, h, -⟩
        rw [← Option.some.inj hfound] at h
        exact absurd h htype

/-- The body of `hashCode` returns the digest of all members. -/
theorem runBody_hashCode (rt : Runtime F D R K) (pair : PrimePair) (hpre : input.pre = none)
    (hpost : input.post = none) (hthis : ∀ m ∈ input.members, this.Has m) :
    ∃ digest, rt.digest pair.multiplier this (BitVec.ofNat 32 pair.seed) input.members = some digest
      ∧ runBody rt (.ofHashCode this) (input.hashCodeStatements pair) = some (.int digest) := by
  have hbody : input.hashCodeStatements pair
      = .startHash pair.seed
        :: (input.members.map (fun m => .mixHash pair.multiplier (m.shape.hashTerm m.name))
          ++ [.returnHash]) := by
    simp [MethodInput.hashCodeStatements, MethodInput.preStatements, MethodInput.postStatements, hpre,
      hpost]
  rw [hbody, runBody_of_next rfl]
  have hhash : ({ Frame.ofHashCode this with hash := some (BitVec.ofNat 32 pair.seed) } :
      Frame F D R K).hash = some (BitVec.ofNat 32 pair.seed) := rfl
  exact runBody_mixing hhash hthis

end Bodies

/-- What a method returns whose body is written so: its text is read, and the statements that are read are run. -/
def Java.runText [DecidableEq K] (rt : Runtime F D R K) (frame : Frame F D R K) (text : String) :
    Option (FieldValue F D R) := do
  runBody rt frame (← statements? text)

/-- The text of statements that it is read as runs as these. -/
theorem runText_of_statements? [DecidableEq K] {rt : Runtime F D R K} {frame : Frame F D R K} {text : String}
    {statements : List Statement} (h : statements? text = some statements) :
    runText rt frame text = runBody rt frame statements := by
  rw [runText, h]
  rfl

/-! ## The contract -/

/-- There is no code around the members of the method. Blank code counts as none. -/
def MethodModel.HasNoCode (method : MethodModel) : Prop :=
  Text.nonBlank? method.preCode = none ∧ Text.nonBlank? method.postCode = none

/-- The object is one of the class: it may be taken as such, and under each name that stands for an attribute it has a
value of the type of that attribute. -/
structure Java.Instance.IsOf (rt : Runtime F D R K) (model : Metamodel) (c : ClassModel)
    (o : Instance F D R K) : Prop where
  isSubclass : rt.isSubclass o.type c.name = true
  has : ∀ name resolved, model.resolve c name = .ok resolved →
    o.Has { name, shape := .ofType resolved.declared.dataType }

/-- An object of a class without a superclass has values for the attributes of that class alone. -/
theorem Java.Instance.IsOf.of_attributes {rt : Runtime F D R K} {model : Metamodel} {c : ClassModel}
    {o : Instance F D R K} (htop : c.superclass = none)
    (hclass : rt.isSubclass o.type c.name = true)
    (hhas : ∀ a ∈ c.attributes, o.Has { name := a.name, shape := .ofType a.dataType }) :
    o.IsOf rt model c where
  isSubclass := hclass
  has name resolved h := by
    obtain ⟨hmem, rfl⟩ := Metamodel.declared_of_resolve htop h
    exact hhas resolved.declared hmem

/-- The comparison of the attribute that the name stands for reports no difference between the two objects. -/
def Java.Runtime.AgreeOn (rt : Runtime F D R K) (model : Metamodel) (c : ClassModel)
    (this other : Instance F D R K) (name : String) : Prop :=
  ∃ resolved, model.resolve c name = .ok resolved
    ∧ rt.Agree this other { name, shape := .ofType resolved.declared.dataType }

section Contract

variable {rt : Runtime F D R K} {w : Workplace} {this other : Instance F D R K} {name : String}
  {m : Member}

theorem Workplace.IsMember.has (h : w.IsMember name m) (hthis : this.IsOf rt w.model w.subject) :
    this.Has m := by
  obtain ⟨rfl, resolved, hresolved, hshape⟩ := h
  have hhas := hthis.has m.name resolved hresolved
  rw [← hshape] at hhas
  exact hhas

/-- A name is that of one member only. -/
theorem Workplace.IsMember.eq (h : w.IsMember name m) {m' : Member} (h' : w.IsMember name m') :
    m' = m := by
  obtain ⟨hname, resolved, hresolved, hshape⟩ := h
  obtain ⟨hname', resolved', hresolved', hshape'⟩ := h'
  rw [hresolved, Except.ok.injEq] at hresolved'
  rw [← hresolved', ← hshape] at hshape'
  rw [Member.mk.injEq]
  exact ⟨hname'.trans hname.symm, hshape'⟩

theorem Workplace.IsMember.agree_iff (h : w.IsMember name m) :
    rt.Agree this other m ↔ rt.AgreeOn w.model w.subject this other name := by
  obtain ⟨rfl, resolved, hresolved, hshape⟩ := h
  constructor
  · intro hagree
    refine ⟨resolved, hresolved, ?_⟩
    rw [← hshape]
    exact hagree
  · rintro ⟨resolved', hresolved', hagree⟩
    rw [hresolved, Except.ok.injEq] at hresolved'
    rw [← hresolved', ← hshape] at hagree
    exact hagree

/-- Members whose names are among those of other members are among these. -/
theorem members_subset {names names' : List String} {members members' : List Member}
    (h : List.Forall₂ w.IsMember names members) (h' : List.Forall₂ w.IsMember names' members')
    (hnames : names ⊆ names') : members ⊆ members' := by
  intro m hm
  obtain ⟨name, hname, hmember⟩ : ∃ name ∈ names, w.IsMember name m :=
    exists_mem_right_of_forall₂ h.flip hm
  obtain ⟨m', hm', hmember'⟩ := exists_mem_right_of_forall₂ h' (hnames hname)
  rw [← hmember.eq hmember']
  exact hm'

/-- The hash code covers names that equality covers, as it always does for the class of a composite key. -/
theorem methodNames_subset (h : w.isIdentity = true
      ∨ w.subject.hashCodeMethod.attributes ⊆ w.subject.equalsMethod.attributes) :
    w.methodNames w.subject.hashCodeMethod ⊆ w.methodNames w.subject.equalsMethod := by
  unfold Workplace.methodNames
  split
  · exact List.Subset.refl _
  · next hidentity =>
    rcases h with h | h
    · exact absurd h hidentity
    · exact h

/-- An object of the class has values for members. -/
theorem has_of_isOf {names : List String} {members : List Member}
    (h : List.Forall₂ w.IsMember names members) (hthis : this.IsOf rt w.model w.subject) :
    ∀ m ∈ members, this.Has m := by
  intro m hm
  obtain ⟨name, -, hmember⟩ : ∃ name ∈ names, w.IsMember name m :=
    exists_mem_right_of_forall₂ h.flip hm
  exact hmember.has hthis

/-- The members of a method that the class covers, without code around them. -/
structure MethodInput.IsPlain (w : Workplace) (method : MethodModel) (input : MethodInput) :
    Prop where
  members : List.Forall₂ w.IsMember (w.methodNames method) input.members
  pre : input.pre = none
  post : input.post = none

theorem Workplace.Remembers.isPlain {memo memo' : FieldMemo} (hmemo : w.Remembers memo)
    {method : MethodModel} (hcode : method.HasNoCode) {input : MethodInput}
    (h : w.methodInput memo (w.methodNames method) method = .ok (input, memo')) :
    input.IsPlain w method := by
  obtain ⟨hmembers, hpre, hpost, -⟩ := hmemo.methodInput h
  obtain ⟨hnopre, hnopost⟩ := hcode
  refine ⟨hmembers, ?_, ?_⟩
  · rw [MethodInput.pre, hpre, hnopre]
    rfl
  · rw [MethodInput.post, hpost, hnopost]
    rfl

end Contract

/-- A body that is there is the one made of the statements, and nothing is wrong with the names. -/
theorem MethodInput.eq_of_body_eq_some {className : String} {input : MethodInput}
    {statements body : List Statement} (h : input.body className statements = .ok (some body)) :
    body = statements ∧ input.fault? className = none := by
  unfold MethodInput.body at h
  split at h
  · exact absurd h (by simp)
  · split at h
    · exact absurd h (by simp)
    · next hfault =>
      rw [Except.ok.injEq, Option.some.injEq] at h
      exact ⟨h.symm, hfault⟩

section Assembled

variable {σ : Type} [PrimeSource σ] {model : Metamodel} {options : GenerationOptions} {c : ClassModel}
  {primes primes' : σ} {artifact : JavaClass} {equalsBody hashCodeBody : List Statement}

/-- The bodies of an assembled class are made of the members that its methods cover. -/
theorem exists_inputs_of_assemble_eq_ok
    (hassemble : assemble model options c primes = (.ok artifact, primes'))
    (hequals : artifact.equalsMethod = some equalsBody)
    (hhashCode : artifact.hashCodeMethod = some hashCodeBody)
    (hequalsCode : c.equalsMethod.HasNoCode) (hhashCodeCode : c.hashCodeMethod.HasNoCode) :
    ∃ (equality hashing : MethodInput) (pair : PrimePair),
      equality.IsPlain { model, options, subject := c } c.equalsMethod
      ∧ hashing.IsPlain { model, options, subject := c } c.hashCodeMethod
      ∧ (equalsBody = equality.equalsStatements c.name ∧ equality.fault? c.name = none)
      ∧ (hashCodeBody = hashing.hashCodeStatements pair ∧ hashing.fault? c.name = none) := by
  obtain ⟨parts, pair, -, hfinish⟩ := exists_parts_of_assemble_eq_ok hassemble
  obtain ⟨hashCodeMethod, _, hhashing, -, rfl⟩ := Draft.exists_methods_of_finish hfinish
  have hequalsMethod : parts.equalsMethod = some equalsBody := hequals
  have hhashCodeMethod : hashCodeMethod = some hashCodeBody := hhashCode
  have hequality := parts.equalsMethod_eq
  rw [hequalsMethod] at hequality
  rw [hhashCodeMethod] at hhashing
  exact ⟨parts.equality, parts.hashing, pair,
    parts.remembers_fieldMemo.isPlain hequalsCode parts.equality_eq,
    parts.remembers_equalityMemo.isPlain hhashCodeCode parts.hashing_eq,
    MethodInput.eq_of_body_eq_some hequality, MethodInput.eq_of_body_eq_some hhashing⟩

/-- Without code written by hand, the texts of the bodies of an assembled class are read as these bodies. -/
theorem statements?_of_assemble_eq_ok
    (hassemble : assemble model options c primes = (.ok artifact, primes'))
    (hequals : artifact.equalsMethod = some equalsBody)
    (hhashCode : artifact.hashCodeMethod = some hashCodeBody)
    (hequalsCode : c.equalsMethod.HasNoCode) (hhashCodeCode : c.hashCodeMethod.HasNoCode) :
    statements? (bodyText equalsBody) = some equalsBody
      ∧ statements? (bodyText hashCodeBody) = some hashCodeBody := by
  obtain ⟨equality, hashing, pair, hequality, hhashing, ⟨rfl, hequalsFault⟩, ⟨rfl, hhashCodeFault⟩⟩ :=
    exists_inputs_of_assemble_eq_ok hassemble hequals hhashCode hequalsCode hhashCodeCode
  exact ⟨MethodInput.statements?_equals hequalsFault hequality.pre hequality.post,
    MethodInput.statements?_hashCode hhashCodeFault pair hhashing.pre hhashing.post⟩

/-- **The contract of equality and hash codes.** A class is assembled with bodies for `equals` and `hashCode`, neither
with code written by hand, and what the latter hashes the former compares; the classes of composite keys, whose methods
cover all their attributes, are among those. The texts of both are read as statements. Run on objects of the class,
`equals` returns a truth value, which says whether there is another object, of the same class, from which no member
differs; and `hashCode` returns a number, the same for objects that are equal. -/
theorem equals_agrees_with_hashCode [DecidableEq K]
    (hassemble : assemble model options c primes = (.ok artifact, primes'))
    (hequals : artifact.equalsMethod = some equalsBody)
    (hhashCode : artifact.hashCodeMethod = some hashCodeBody)
    (hequalsCode : c.equalsMethod.HasNoCode) (hhashCodeCode : c.hashCodeMethod.HasNoCode)
    (hcovers : ({ model, options, subject := c } : Workplace).isIdentity = true
      ∨ c.hashCodeMethod.attributes ⊆ c.equalsMethod.attributes)
    (rt : Runtime F D R K) {this : Instance F D R K} (hthis : this.IsOf rt model c)
    (obj : Option (Instance F D R K))
    (hobj : ∀ other ∈ obj, other.type = this.type → other.IsOf rt model c) :
    ∃ equal hash, runText rt (.ofEquals this obj) (bodyText equalsBody) = some (.boolean equal)
      ∧ runText rt (.ofHashCode this) (bodyText hashCodeBody) = some (.int hash)
      ∧ (equal = true ↔ ∃ other, obj = some other ∧ other.type = this.type
        ∧ ∀ name ∈ ({ model, options, subject := c } : Workplace).methodNames c.equalsMethod,
          rt.AgreeOn model c this other name)
      ∧ (equal = true → ∀ other ∈ obj,
          runText rt (.ofHashCode other) (bodyText hashCodeBody) = some (.int hash)) := by
  obtain ⟨hreadEquals, hreadHashCode⟩ :=
    statements?_of_assemble_eq_ok hassemble hequals hhashCode hequalsCode hhashCodeCode
  simp only [runText_of_statements? hreadEquals, runText_of_statements? hreadHashCode]
  obtain ⟨equality, hashing, pair, hequality, hhashing, ⟨rfl, -⟩, ⟨rfl, -⟩⟩ :=
    exists_inputs_of_assemble_eq_ok hassemble hequals hhashCode hequalsCode hhashCodeCode
  -- Whatever is hashed is also compared.
  have hsubset : hashing.members ⊆ equality.members :=
    members_subset hhashing.members hequality.members (methodNames_subset hcovers)
  have hhas := has_of_isOf hequality.members hthis
  have hhashed : ∀ m ∈ hashing.members, this.Has m := fun m hm => hhas m (hsubset hm)
  obtain ⟨equal, hrun, hiff⟩ := runBody_equals hequality.pre hequality.post hthis.isSubclass hhas
    fun other hother htype => has_of_isOf hequality.members (hobj other hother htype)
  obtain ⟨hash, hdigest, hrunhash⟩ := runBody_hashCode rt pair hhashing.pre hhashing.post hhashed
  refine ⟨equal, hash, hrun, hrunhash, ?_, ?_⟩
  · rw [hiff]
    refine exists_congr fun other => and_congr_right fun _ => and_congr_right fun _ => ?_
    exact forall_mem_iff_of_forall₂ hequality.members fun name m hmember => hmember.agree_iff
  · intro hequal other hother
    obtain ⟨found, hfound, htype, hagree⟩ := hiff.mp hequal
    rw [Option.mem_def, hfound, Option.some.injEq] at hother
    rw [← hother]
    have hfoundhashed : ∀ m ∈ hashing.members, found.Has m := fun m hm =>
      has_of_isOf hequality.members (hobj found hfound htype) m (hsubset hm)
    obtain ⟨hash', hdigest', hrunhash'⟩ :=
      runBody_hashCode rt pair hhashing.pre hhashing.post hfoundhashed
    rw [digest_eq_of_agree hhashed hfoundhashed fun m hm => hagree m (hsubset hm), hdigest,
      Option.some.injEq] at hdigest'
    rw [hrunhash', hdigest']

end Assembled

/-! ## Keys of parcels -/

/-- A reference to nothing, to a text, or to an array of numbers. -/
inductive SampleReference where
  | null
  | text (value : String)
  | numbers (values : List (BitVec 32))
  deriving DecidableEq

/-- The hash code of what is referred to. -/
def SampleReference.hashCode : SampleReference → BitVec 32
  | .null => 0
  | .text value => value.toList.foldl (fun hash ch => 31 * hash + BitVec.ofNat 32 ch.toNat) 0
  | .numbers values => values.foldl (fun hash n => 31 * hash + n) 1

/-- Values, with floating-point numbers as their bits. -/
abbrev SampleValue :=
  FieldValue (BitVec 32) (BitVec 64) SampleReference

def SampleValue.hashCode : SampleValue → BitVec 32
  | .reference r => r.hashCode
  | _ => 0

/-- A runtime where values are equal when they are the same, and all that is not a number has the same bits. -/
def sampleRuntime : Runtime (BitVec 32) (BitVec 64) SampleReference String where
  floatToIntBits x := if 0x7f800000 < x &&& 0x7fffffff then 0x7fc00000 else x
  doubleToLongBits x := if 0x7ff0000000000000 < x &&& 0x7fffffffffffffff then 0x7ff8000000000000 else x
  arraysEquals v w := decide (v = w)
  arraysHashCode := SampleValue.hashCode
  arraysDeepEquals v w := decide (v = w)
  arraysDeepHashCode := SampleValue.hashCode
  objectsEquals v w := decide (v = w)
  objectsHashCode := SampleValue.hashCode
  isSubclass type className := type == className
  arrays_law _ _ h := congrArg _ (of_decide_eq_true h)
  arraysDeep_law _ _ h := congrArg _ (of_decide_eq_true h)
  objects_law _ _ h := congrArg _ (of_decide_eq_true h)

/-- The key of a parcel. -/
def parcelKey : ClassModel :=
  { ClassModel.empty "ParcelKey" .embeddedId with
    attributes :=
      [.plain "number" "long", .plain "weight" "double", .plain "label" "String",
        .plain "codes" "int[]"] }

def parcelModel : Metamodel :=
  { Metamodel.empty "post" with classes := [parcelKey] }

/-- The key of a parcel whose weight has the given bits. -/
def parcel (weight : BitVec 64) : Instance (BitVec 32) (BitVec 64) SampleReference String :=
  { type := "ParcelKey"
    field := fun
      | "number" => some (.long 8589934597)
      | "weight" => some (.double weight)
      | "label" => some (.reference (.text "fragile"))
      | "codes" => some (.reference (.numbers [4, 8]))
      | _ => none }

theorem parcel_isOf (weight : BitVec 64) :
    (parcel weight).IsOf sampleRuntime parcelModel parcelKey := by
  apply Java.Instance.IsOf.of_attributes rfl rfl
  intro a ha
  simp only [parcelKey, List.mem_cons, List.not_mem_nil, or_false] at ha
  rcases ha with rfl | rfl | rfl | rfl
  · exact ⟨_, rfl, .long _⟩
  · exact ⟨_, rfl, .double weight⟩
  · exact ⟨_, rfl, .object _⟩
  · exact ⟨_, rfl, .array false _⟩

/-- Two keys whose weights are no numbers, though of different bits, are equal and have one hash code. -/
theorem equals_agrees_with_hashCode_parcel :
    ∃ (artifact : JavaClass) (primes : PrimeSupply) (equalsBody hashCodeBody : List Statement)
      (hash : BitVec 32),
      assemble parcelModel .standard parcelKey (PrimeSupply.fixed .standard) = (.ok artifact, primes)
        ∧ runText sampleRuntime
            (.ofEquals (parcel 0x7ff8000000000001) (some (parcel 0x7ff8000000000002))) (bodyText equalsBody)
          = some (.boolean true)
        ∧ runText sampleRuntime (.ofHashCode (parcel 0x7ff8000000000001)) (bodyText hashCodeBody)
          = some (.int hash)
        ∧ runText sampleRuntime (.ofHashCode (parcel 0x7ff8000000000002)) (bodyText hashCodeBody)
          = some (.int hash) := by
  have hsummary :
      ((assemble parcelModel .standard parcelKey (PrimeSupply.fixed .standard)).1.toOption.map
        fun artifact =>
          (artifact.equalsMethod.bind (runBody sampleRuntime
            (.ofEquals (parcel 0x7ff8000000000001) (some (parcel 0x7ff8000000000002)))),
            artifact.hashCodeMethod.isSome))
        = some (some (.boolean true), true) := by
    decide +kernel
  rcases hassemble : assemble parcelModel .standard parcelKey (PrimeSupply.fixed .standard) with
    ⟨result, primes⟩
  rw [hassemble, Option.map_eq_some_iff] at hsummary
  obtain ⟨artifact, hartifact, hsummary⟩ := hsummary
  obtain rfl := toOption_eq_some_iff.mp hartifact
  rw [Prod.mk.injEq, Option.bind_eq_some_iff, Option.isSome_iff_exists] at hsummary
  obtain ⟨⟨equalsBody, hequals, hrun⟩, ⟨hashCodeBody, hhashCode⟩⟩ := hsummary
  obtain ⟨hread, -⟩ := statements?_of_assemble_eq_ok hassemble hequals hhashCode ⟨rfl, rfl⟩ ⟨rfl, rfl⟩
  rw [← runText_of_statements? hread] at hrun
  obtain ⟨equal, hash, hrunequals, hrunhash, -, hagree⟩ :=
    equals_agrees_with_hashCode hassemble hequals hhashCode ⟨rfl, rfl⟩ ⟨rfl, rfl⟩ (Or.inl rfl)
      sampleRuntime (parcel_isOf 0x7ff8000000000001) (some (parcel 0x7ff8000000000002)) (by
        intro other hother _
        rw [← Option.some.inj hother]
        exact parcel_isOf 0x7ff8000000000002)
  rw [hrun, Option.some.injEq, FieldValue.boolean.injEq] at hrunequals
  exact ⟨artifact, primes, equalsBody, hashCodeBody, hash, rfl, hrun, hrunhash,
    hagree hrunequals.symm _ rfl⟩

end EntityForge
