import EntityForge.Generation.Order
import EntityForge.Proofs.Ancestry
import EntityForge.Proofs.Assembly

/-!
# Metamodels that agree

A class is assembled from its own data, from what the classes of the metamodel share, and from the classes that names
stand for. In two metamodels where names stand for related classes (`Metamodel.Relates`), what is looked up is related
too. When all that its draft is made of is the same (`Workplace.Matches`), a class is assembled to the same result.

It makes no difference whether the classes that names stand for are generated themselves: metamodels that differ in
nothing else agree (`Metamodel.Agrees`).

Main statements: `assemble_eq_of_agrees`, `orderClasses_eq_of_agrees`.
-/

namespace EntityForge

/-! ## Alike results -/

/-- Two results are alike when both are the same error, or both succeed with related values. -/
inductive Alike {ε α β : Type} (R : α → β → Prop) : Except ε α → Except ε β → Prop
  | ok {a : α} {b : β} (h : R a b) : Alike R (.ok a) (.ok b)
  | error (e : ε) : Alike R (.error e) (.error e)

namespace Alike

variable {ε ε' α β γ δ : Type} {R : α → β → Prop} {S : γ → δ → Prop} {x : Except ε α}
  {y : Except ε β}

/-- Alike steps, followed by steps that are alike on related values, are alike. -/
theorem bind {f : α → Except ε γ} {g : β → Except ε δ} (h : Alike R x y)
    (hnext : ∀ a b, R a b → Alike S (f a) (g b)) : Alike S (x >>= f) (y >>= g) := by
  cases h with
  | ok hab => exact hnext _ _ hab
  | error e => exact .error e

/-- Alike steps, followed by steps that have one result on related values, have one result. -/
theorem bind_eq {f : α → Except ε γ} {g : β → Except ε γ} (h : Alike R x y)
    (hnext : ∀ a b, R a b → g b = f a) : y >>= g = x >>= f := by
  cases h with
  | ok hab => exact hnext _ _ hab
  | error e => rfl

theorem imp {S : α → β → Prop} (h : Alike R x y) (hRS : ∀ a b, R a b → S a b) : Alike S x y := by
  cases h with
  | ok hab => exact .ok (hRS _ _ hab)
  | error e => exact .error e

/-- A result that is alike up to a function is the image of the other. -/
theorem eq_map {f : α → β} (h : Alike (fun a b => b = f a) x y) : y = x.map f := by
  cases h with
  | ok hab =>
    rw [hab]
    rfl
  | error e => rfl

theorem mapError (f : ε → ε') (h : Alike R x y) : Alike R (x.mapError f) (y.mapError f) := by
  cases h with
  | ok hab => exact .ok hab
  | error e => exact .error (f e)

/-- What is alike to a success succeeds. -/
theorem exists_right {a : α} (h : Alike R x y) (hx : x = .ok a) : ∃ b, y = .ok b ∧ R a b := by
  subst hx
  cases h with
  | ok hab => exact ⟨_, rfl, hab⟩

theorem exists_left {b : β} (h : Alike R x y) (hy : y = .ok b) : ∃ a, x = .ok a ∧ R a b := by
  subst hy
  cases h with
  | ok hab => exact ⟨_, rfl, hab⟩

end Alike

/-! ## Classes up to their generation -/

namespace ClassModel

/-- Two classes that differ at most in whether they are generated. -/
def SameContent (c d : ClassModel) : Prop :=
  ∃ generate, d = { c with generateSource := generate }

theorem SameContent.refl (c : ClassModel) : SameContent c c :=
  ⟨c.generateSource, rfl⟩

theorem SameContent.name_eq {c d : ClassModel} (h : SameContent c d) : d.name = c.name := by
  obtain ⟨generate, rfl⟩ := h
  rfl

theorem SameContent.superclass_eq {c d : ClassModel} (h : SameContent c d) :
    d.superclass = c.superclass := by
  obtain ⟨generate, rfl⟩ := h
  rfl

end ClassModel

open ClassModel (SameContent)

/-- Related options are both empty, or hold related values. -/
theorem eq_none_or_exists_of_rel {α β : Type} {R : α → β → Prop} {x : Option α} {y : Option β}
    (h : Option.Rel R x y) :
    x = none ∧ y = none ∨ ∃ a b, x = some a ∧ y = some b ∧ R a b := by
  cases h with
  | some hab => exact Or.inr ⟨_, _, rfl, rfl, hab⟩
  | none => exact Or.inl ⟨rfl, rfl⟩

/-- The first items that two tests accept are related when the tests come out alike on related items. -/
theorem find?_of_forall₂ {α β : Type} {R : α → β → Prop} {p : α → Bool} {q : β → Bool} {as : List α} {bs : List β}
    (hpq : ∀ a b, R a b → q b = p a) (h : List.Forall₂ R as bs) : Option.Rel R (as.find? p) (bs.find? q) := by
  induction h with
  | nil => exact .none
  | @cons a b _ _ hab _ ih =>
    rw [List.find?_cons, List.find?_cons, hpq a b hab]
    cases p a with
    | true => exact .some hab
    | false => exact ih

/-- Items that are related one by one have the same images when related items do. -/
theorem map_eq_of_forall₂ {α β γ : Type} {R : α → β → Prop} {f : α → γ} {g : β → γ} {as : List α} {bs : List β}
    (hfg : ∀ a b, R a b → g b = f a) (h : List.Forall₂ R as bs) : bs.map g = as.map f := by
  induction h with
  | nil => rfl
  | cons hab _ ih => rw [List.map_cons, List.map_cons, hfg _ _ hab, ih]

/-! ## Related classes -/

/-- Related classes look alike to the classes that extend them: they have the same name and superclass, and they declare
related attributes, which have the same names. -/
structure ClassModel.LooksAlike (R : ClassModel → ClassModel → Prop) (A : Attribute → Attribute → Prop) : Prop where
  name_eq : ∀ c d, R c d → d.name = c.name
  superclass_eq : ∀ c d, R c d → d.superclass = c.superclass
  attributes : ∀ c d, R c d → List.Forall₂ A c.attributes d.attributes
  attributeName_eq : ∀ a b, A a b → b.name = a.name

/-- Two resolved attributes are related, and so are the classes that declare them. -/
def Resolved.Related (R : ClassModel → ClassModel → Prop) (A : Attribute → Attribute → Prop) (r s : Resolved) : Prop :=
  A r.declared s.declared ∧ R r.owner s.owner

/-- Each name stands for related classes in two metamodels. -/
structure Metamodel.Relates (R : ClassModel → ClassModel → Prop) (A : Attribute → Attribute → Prop)
    (model other : Metamodel) : Prop extends ClassModel.LooksAlike R A where
  class? : ∀ name, Option.Rel R (model.class? name) (other.class? name)

namespace ClassModel.LooksAlike

variable {R : ClassModel → ClassModel → Prop} {A : Attribute → Attribute → Prop} {c d : ClassModel}

/-- A name stands for related attributes of related classes. -/
theorem attribute? (h : LooksAlike R A) (hcd : R c d) (name : String) :
    Option.Rel A (c.attribute? name) (d.attribute? name) := by
  refine find?_of_forall₂ (fun a b hab => ?_) (h.attributes c d hcd)
  rw [h.attributeName_eq a b hab]

/-- The attributes of related classes have the same names. -/
theorem attributeNames (h : LooksAlike R A) (hcd : R c d) :
    d.attributes.map (·.name) = c.attributes.map (·.name) :=
  map_eq_of_forall₂ h.attributeName_eq (h.attributes c d hcd)

/-- A name stands for related attributes in lists of related classes. -/
theorem findAttribute? (h : LooksAlike R A) (name : String) {classes others : List ClassModel}
    (hclasses : List.Forall₂ R classes others) :
    Option.Rel (Resolved.Related R A) (Metamodel.findAttribute? name classes)
      (Metamodel.findAttribute? name others) := by
  induction hclasses with
  | nil => exact .none
  | @cons c d _ _ hcd _ ih =>
    rw [Metamodel.findAttribute?, Metamodel.findAttribute?]
    rcases eq_none_or_exists_of_rel (h.attribute? hcd name) with ⟨hleft, hright⟩ | ⟨a, b, hleft, hright, hab⟩
    · rw [hleft, hright]
      exact ih
    · rw [hleft, hright]
      exact .some ⟨hab, hcd⟩

/-- Attributes of the same names are right or wrong alike below related ancestors. -/
theorem attributeFault? (h : LooksAlike R A) {ancestors others : List ClassModel}
    (hancestors : List.Forall₂ R ancestors others) {attributes changed : List Attribute}
    (hnames : changed.map (·.name) = attributes.map (·.name)) (seen : List String) :
    EntityForge.attributeFault? others seen changed = EntityForge.attributeFault? ancestors seen attributes := by
  induction attributes generalizing changed seen with
  | nil =>
    obtain rfl : changed = [] := List.map_eq_nil_iff.mp hnames
    rfl
  | cons a rest ih =>
    obtain ⟨b, others', rfl⟩ : ∃ b others', changed = b :: others' := by
      cases changed with
      | nil => exact absurd hnames (by simp)
      | cons b others' => exact ⟨b, others', rfl⟩
    rw [List.map_cons, List.map_cons, List.cons.injEq] at hnames
    obtain ⟨hname, hrest⟩ := hnames
    have hsame : ∀ c d, R c d → (d.attribute? a.name).isSome = (c.attribute? a.name).isSome := by
      intro c d hcd
      rcases eq_none_or_exists_of_rel (h.attribute? hcd a.name) with ⟨hleft, hright⟩ | ⟨_, _, hleft, hright, -⟩
      · rw [hleft, hright]
      · rw [hleft, hright]
        rfl
    have hfind := find?_of_forall₂ hsame hancestors
    unfold EntityForge.attributeFault?
    rw [hname, ih hrest]
    rcases eq_none_or_exists_of_rel hfind with ⟨hleft, hright⟩ | ⟨c, d, hleft, hright, hcd⟩
    · rw [hleft, hright]
    · rw [hleft, hright]
      simp only [h.name_eq c d hcd]

/-- Related classes below related ancestors see attributes of the same names. -/
theorem visibleNames (h : LooksAlike R A) {classes others : List ClassModel}
    (hclasses : List.Forall₂ R classes others) :
    (others.flatMap fun c => c.attributes.map (·.name)) = classes.flatMap fun c => c.attributes.map (·.name) := by
  induction hclasses with
  | nil => rfl
  | cons hcd _ ih => rw [List.flatMap_cons, List.flatMap_cons, h.attributeNames hcd, ih]

end ClassModel.LooksAlike

namespace Metamodel

variable {model other : Metamodel}

/-! ## Lookup -/

section Step

variable {start : String} {seen : List String} {unseen : List ClassModel} {c parent : ClassModel}
  {name : String}

/-- The walk goes on from an unseen class of the name. -/
theorem ancestorsAmong_of_find?_eq_some (hname : c.superclass = some name)
    (hfind : unseen.find? (·.name == name) = some parent) :
    model.ancestorsAmong start unseen c
      = model.ancestorsAmong start (withoutName name unseen) parent
        >>= fun rest => pure (parent :: rest) := by
  rw [ancestorsAmong]
  split
  · next htop =>
    rw [hname] at htop
    exact absurd htop (by simp)
  · next other hother =>
    obtain rfl := Option.some.inj (hname.symm.trans hother)
    split
    · next p hp =>
      obtain rfl := Option.some.inj (hfind.symm.trans hp)
      rfl
    · next hnone =>
      rw [hfind] at hnone
      exact absurd hnone (by simp)

/-- The walk ends at a name that no unseen class bears: it came up before, or no class bears it at all. -/
theorem ancestorsAmong_of_find?_eq_none (hname : c.superclass = some name)
    (hfind : unseen.find? (·.name == name) = none) :
    model.ancestorsAmong start unseen c
      = .error (if (model.class? name).isSome then .cyclicHierarchy start
        else .unknownClass name c.name) := by
  rw [ancestorsAmong]
  split
  · next htop =>
    rw [hname] at htop
    exact absurd htop (by simp)
  · next other hother =>
    obtain rfl := Option.some.inj (hname.symm.trans hother)
    split
    · next p hp =>
      rw [hfind] at hp
      exact absurd hp (by simp)
    · cases model.class? name with
      | some _ => rfl
      | none => rfl

/-- The walk ends at a name that no class bears. -/
theorem ancestorsAmong_of_unknown (hname : c.superclass = some name)
    (hnone : model.class? name = none) :
    model.ancestorsAmong start (model.unseenClasses seen) c
      = .error (.unknownClass name c.name) := by
  have hfind : (model.unseenClasses seen).find? (·.name == name) = none := by
    rw [find?_unseenClasses, hnone]
    split <;> rfl
  rw [ancestorsAmong_of_find?_eq_none hname hfind, hnone]
  rfl

/-- The walk ends at a name that came up before. -/
theorem ancestorsAmong_of_seen (hname : c.superclass = some name)
    (hclass : model.class? name = some parent) (hseen : name ∈ seen) :
    model.ancestorsAmong start (model.unseenClasses seen) c = .error (.cyclicHierarchy start) := by
  have hfind : (model.unseenClasses seen).find? (·.name == name) = none := by
    rw [find?_unseenClasses, if_pos hseen]
  rw [ancestorsAmong_of_find?_eq_none hname hfind, hclass]
  rfl

/-- The walk goes on from the class of a name that is new. -/
theorem ancestorsAmong_of_fresh (hname : c.superclass = some name)
    (hclass : model.class? name = some parent) (hfresh : name ∉ seen) :
    model.ancestorsAmong start (model.unseenClasses seen) c
      = model.ancestorsAmong start (model.unseenClasses (seen ++ [name])) parent
        >>= fun rest => pure (parent :: rest) := by
  have hfind : (model.unseenClasses seen).find? (·.name == name) = some parent := by
    rw [find?_unseenClasses, if_neg hfresh, hclass]
  rw [ancestorsAmong_of_find?_eq_some hname hfind, withoutName_unseenClasses]

end Step

/-- A name that is new leaves fewer unseen classes. -/
theorem length_unseenClasses_lt {seen : List String} {name : String} {c : ClassModel}
    (hclass : model.class? name = some c) (hfresh : name ∉ seen) :
    (model.unseenClasses (seen ++ [name])).length < (model.unseenClasses seen).length := by
  rw [← withoutName_unseenClasses]
  refine length_withoutName_lt (c := c) ?_
  rw [find?_unseenClasses, if_neg hfresh, hclass]

namespace Relates

variable {R : ClassModel → ClassModel → Prop} {A : Attribute → Attribute → Prop} {c d : ClassModel}

/-- Related classes have related superclasses. -/
theorem superclassOf (h : model.Relates R A other) (hcd : R c d) :
    Alike (Option.Rel R) (model.superclassOf c) (other.superclassOf d) := by
  unfold Metamodel.superclassOf
  rw [h.superclass_eq c d hcd, h.name_eq c d hcd]
  cases c.superclass with
  | none => exact .ok .none
  | some name =>
    simp only
    rcases eq_none_or_exists_of_rel (h.class? name) with
      ⟨hparent, hother⟩ | ⟨p, q, hparent, hother, hpq⟩
    · rw [hparent, hother]
      exact .error _
    · rw [hparent, hother]
      exact .ok (.some hpq)

/-- The walks over the superclasses of related classes are alike. -/
theorem ancestorsAmong (h : model.Relates R A other) (start : String) (seen : List String) (hcd : R c d) :
    Alike (List.Forall₂ R)
      (model.ancestorsAmong start (model.unseenClasses seen) c)
      (other.ancestorsAmong start (other.unseenClasses seen) d) := by
  -- Each step up leaves fewer unseen classes.
  induction hn : (model.unseenClasses seen).length using Nat.strongRecOn
    generalizing seen c d with
  | ind n ih =>
    cases hname : c.superclass with
    | none =>
      rw [ancestorsAmong_of_top hname, ancestorsAmong_of_top ((h.superclass_eq c d hcd).trans hname)]
      exact .ok .nil
    | some name =>
      have hname' := (h.superclass_eq c d hcd).trans hname
      rcases eq_none_or_exists_of_rel (h.class? name) with
        ⟨hparent, hother⟩ | ⟨p, q, hparent, hother, hpq⟩
      · rw [ancestorsAmong_of_unknown hname hparent, ancestorsAmong_of_unknown hname' hother,
          h.name_eq c d hcd]
        exact .error _
      · by_cases hseen : name ∈ seen
        · rw [ancestorsAmong_of_seen hname hparent hseen, ancestorsAmong_of_seen hname' hother hseen]
          exact .error _
        · rw [ancestorsAmong_of_fresh hname hparent hseen,
            ancestorsAmong_of_fresh hname' hother hseen]
          have hlt := length_unseenClasses_lt hparent hseen
          refine (ih _ (hn ▸ hlt) (seen ++ [name]) hpq rfl).bind fun rest others hrest => ?_
          exact .ok (.cons hpq hrest)

/-- Related classes have related ancestors. -/
theorem ancestors (h : model.Relates R A other) (hcd : R c d) :
    Alike (List.Forall₂ R) (model.ancestors c) (other.ancestors d) := by
  unfold Metamodel.ancestors
  rw [withoutName_classes, withoutName_classes, h.name_eq c d hcd]
  exact h.ancestorsAmong c.name [c.name] hcd

/-- A name stands for related attributes in related classes. -/
theorem resolve (h : model.Relates R A other) (hcd : R c d) (name : String) :
    Alike (Resolved.Related R A) (model.resolve c name) (other.resolve d name) := by
  unfold Metamodel.resolve
  rcases eq_none_or_exists_of_rel (h.attribute? hcd name) with ⟨hleft, hright⟩ | ⟨a, b, hleft, hright, hab⟩
  · rw [hleft, hright, h.name_eq c d hcd]
    refine (h.ancestors hcd).bind fun ancestors others hancestors => ?_
    rcases eq_none_or_exists_of_rel (h.findAttribute? name hancestors) with
      ⟨hnone, hnone'⟩ | ⟨r, s, hsome, hsome', hrs⟩
    · rw [hnone, hnone']
      exact .error _
    · rw [hsome, hsome']
      exact .ok hrs
  · rw [hleft, hright]
    exact .ok ⟨hab, hcd⟩

/-- A name stands for the same field in related classes, provided that related attributes have the same type and the
same field. -/
theorem ofName_eq (h : model.Relates R A other) (hcd : R c d) {options : GenerationOptions}
    (hfield : ∀ a b, A a b → b.dataType = a.dataType
      ∧ JavaField.ofAttribute options d b = JavaField.ofAttribute options c a) (name : String) :
    JavaField.ofName other options d name = JavaField.ofName model options c name := by
  unfold JavaField.ofName
  refine ((h.resolve hcd name).mapError _).bind_eq ?_
  rintro r s ⟨hab, howner⟩
  obtain ⟨htype, hof⟩ := hfield _ _ hab
  have hname := h.name_eq _ _ howner
  have howned : s.isOwnedBy d = r.isOwnedBy c := by
    rw [Resolved.isOwnedBy, Resolved.isOwnedBy, hname, h.name_eq c d hcd]
  simp only [h.attributeName_eq _ _ hab, htype, hof, hname, howned]

end Relates

end Metamodel

/-! ## Workplaces that match -/

namespace Workplace

/-- All that the draft of the class at a workplace is made of is the same at another one. -/
structure Matches (w v : Workplace) : Prop where
  field : ∀ name, JavaField.ofName v.model v.options v.subject name = JavaField.ofName w.model w.options w.subject name
  name : v.subject.name = w.subject.name
  kind : v.subject.kind = w.subject.kind
  package : v.subject.packageOr v.model.package = w.subject.packageOr w.model.package
  isAbstract : v.subject.isAbstract = w.subject.isAbstract
  attributeNames : v.subject.attributes.map (·.name) = w.subject.attributes.map (·.name)
  constructors : v.subject.constructors.filter (·.enabled) = w.subject.constructors.filter (·.enabled)
  isIdentity : v.isIdentity = w.isIdentity
  equalsMethod : v.subject.equalsMethod = w.subject.equalsMethod
  hashCodeMethod : v.subject.hashCodeMethod = w.subject.hashCodeMethod
  toStringMethod : v.subject.toStringMethod = w.subject.toStringMethod
  ancestors : Alike
    (fun ancestors others =>
      attributeFault? others [] v.subject.attributes = attributeFault? ancestors [] w.subject.attributes
        ∧ v.visibleNames others = w.visibleNames ancestors)
    (w.model.ancestors w.subject) (v.model.ancestors v.subject)
  superclass : v.superclass = w.superclass
  interfaces : v.interfaces = w.interfaces
  persistence : Persistence.classUses v.subject = Persistence.classUses w.subject
  binding : ∀ visible, v.subject.binding.uses visible = w.subject.binding.uses visible
  annotations : Placed.ofAnnotations (v.subject.annotations ++ v.subject.runtimeAnnotations)
    = Placed.ofAnnotations (w.subject.annotations ++ w.subject.runtimeAnnotations)
  snippets : Placed.ofSnippets (v.model.snippets ++ v.subject.snippets ++ v.subject.runtimeSnippets)
    = Placed.ofSnippets (w.model.snippets ++ w.subject.snippets ++ w.subject.runtimeSnippets)
  bindingSupport : v.model.bindingSupport = w.model.bindingSupport

namespace Matches

variable {w v : Workplace}

theorem field_eq (h : w.Matches v) (memo : FieldMemo) (name : String) : v.field memo name = w.field memo name := by
  simp only [Workplace.field, h.field]

theorem fields_eq (h : w.Matches v) (memo : FieldMemo) (names : List String) :
    v.fields memo names = w.fields memo names := by
  induction names generalizing memo with
  | nil => rfl
  | cons name names ih => simp only [fields, h.field_eq, ih]

theorem members_eq (h : w.Matches v) (memo : FieldMemo) (seen names : List String) :
    v.members memo seen names = w.members memo seen names := by
  induction names generalizing memo seen with
  | nil => rfl
  | cons name names ih => simp only [members, h.field_eq, ih]

theorem methodNames_eq (h : w.Matches v) (method : MethodModel) : v.methodNames method = w.methodNames method := by
  simp only [methodNames, h.isIdentity, h.attributeNames]

theorem methodInput_eq (h : w.Matches v) (memo : FieldMemo) (names : List String) (method : MethodModel) :
    v.methodInput memo names method = w.methodInput memo names method := by
  simp only [methodInput, h.members_eq]

theorem constructor_eq (h : w.Matches v) (memo : FieldMemo) (names : List String) (access : Access) :
    v.constructor memo names access = w.constructor memo names access := by
  simp only [constructor, h.fields_eq, h.name]

theorem constructors_eq (h : w.Matches v) (memo : FieldMemo) (built : List JavaConstructor)
    (models : List ConstructorModel) : v.constructors memo built models = w.constructors memo built models := by
  induction models generalizing memo built with
  | nil => rfl
  | cons model rest ih => simp only [Workplace.constructors, h.constructor_eq, ih]

theorem allConstructors_eq (h : w.Matches v) (memo : FieldMemo) (names : List String) :
    v.allConstructors memo names = w.allConstructors memo names := by
  simp only [allConstructors, identityConstructors, h.constructor_eq, h.constructors_eq, h.isIdentity, h.constructors]

/-- Classes at workplaces that match have the same draft. -/
theorem ofWorkplace_eq (h : w.Matches v) : Draft.ofWorkplace v = Draft.ofWorkplace w := by
  unfold Draft.ofWorkplace
  simp only [h.name, h.kind, h.package, h.isAbstract, h.attributeNames, h.equalsMethod, h.hashCodeMethod,
    h.toStringMethod, h.fields_eq, h.methodNames_eq, h.methodInput_eq, h.allConstructors_eq, h.superclass, h.interfaces,
    h.persistence, h.binding, h.annotations, h.snippets, h.bindingSupport]
  split
  · rfl
  · refine (h.ancestors.mapError _).bind_eq fun ancestors others hancestors => ?_
    simp only [hancestors.1, hancestors.2]

/-- Classes at workplaces that match are assembled to the same result, and the primes that are left are the same. -/
theorem assemble_eq {model other : Metamodel} {options : GenerationOptions} {c d : ClassModel}
    (h : Matches { model, options, subject := c } { model := other, options, subject := d }) {σ : Type} [PrimeSource σ]
    (primes : σ) : assemble other options d primes = assemble model options c primes := by
  have hname : d.name = c.name := h.name
  unfold assemble
  rw [h.ofWorkplace_eq, hname]

end Matches

end Workplace

/-! ## Agreement -/

/-- Two metamodels whose classes share the same things, and in which each name stands for a class of the same
content. -/
structure Metamodel.Agrees (model other : Metamodel) : Prop where
  package : other.package = model.package
  bindingSupport : other.bindingSupport = model.bindingSupport
  interfaces : other.interfaces = model.interfaces
  snippets : other.snippets = model.snippets
  class? : ∀ name, Option.Rel SameContent (model.class? name) (other.class? name)

section Agreement

variable {model other : Metamodel}

/-- Names stand for classes of the same content, which declare the same attributes. -/
theorem Metamodel.Agrees.relates (h : model.Agrees other) : model.Relates SameContent Eq other where
  name_eq _ _ hcd := hcd.name_eq
  superclass_eq _ _ hcd := hcd.superclass_eq
  attributes c d hcd := by
    obtain ⟨generate, rfl⟩ := hcd
    exact List.forall₂_refl _
  attributeName_eq _ _ hab := by rw [hab]
  class? := h.class?

/-- A class is at matching workplaces in metamodels that agree. -/
theorem Metamodel.Agrees.matches (h : model.Agrees other) (options : GenerationOptions) (c : ClassModel) :
    Workplace.Matches { model, options, subject := c } { model := other, options, subject := c } where
  field := h.relates.ofName_eq (.refl c) (by rintro a _ rfl; exact ⟨rfl, rfl⟩)
  name := rfl
  kind := rfl
  package := by rw [h.package]
  isAbstract := rfl
  attributeNames := rfl
  constructors := rfl
  isIdentity := rfl
  equalsMethod := rfl
  hashCodeMethod := rfl
  toStringMethod := rfl
  ancestors := by
    have hlook := h.relates.toLooksAlike
    refine (h.relates.ancestors (.refl c)).imp fun ancestors others hancestors => ?_
    exact ⟨hlook.attributeFault? hancestors rfl [], hlook.visibleNames (.cons (.refl c) hancestors)⟩
  superclass := by
    unfold Workplace.superclass
    refine (h.relates.superclassOf (.refl c)).bind_eq ?_
    rintro _ _ (⟨generate, rfl⟩ | _)
    · simp only [h.package]
      rfl
    · rfl
  interfaces := by
    unfold Workplace.interfaces
    rw [h.interfaces]
  persistence := rfl
  binding _ := rfl
  annotations := rfl
  snippets := by rw [h.snippets]
  bindingSupport := h.bindingSupport

end Agreement

/-- **What assembly depends on.** In metamodels that agree, a class is assembled to the same result, and the primes
that are left are the same. -/
theorem assemble_eq_of_agrees {σ : Type} [PrimeSource σ] {model other : Metamodel}
    (h : model.Agrees other) (options : GenerationOptions) (c : ClassModel) (primes : σ) :
    assemble other options c primes = assemble model options c primes :=
  (h.matches options c).assemble_eq primes

/-! ## Ordering -/

/-- A class waits for the same name in metamodels that agree. -/
theorem Candidate.ofClass_eq_of_agrees {model other : Metamodel} (h : model.Agrees other)
    (classes : List ClassModel) (c : ClassModel) :
    Candidate.ofClass other classes c = Candidate.ofClass model classes c := by
  unfold Candidate.ofClass
  refine (h.relates.superclassOf (.refl c)).bind_eq ?_
  rintro _ _ (⟨generate, rfl⟩ | _)
  · simp only [Option.filter]
    split <;> rfl
  · rfl

/-- Classes are put in the same order in metamodels that agree. -/
theorem orderClasses_eq_of_agrees {model other : Metamodel} (h : model.Agrees other)
    (stage : Stage) (classes : List ClassModel) :
    orderClasses other stage classes = orderClasses model stage classes := by
  have hofClass : Candidate.ofClass other classes = Candidate.ofClass model classes :=
    funext fun c => Candidate.ofClass_eq_of_agrees h classes c
  unfold orderClasses
  rw [hofClass]

end EntityForge
