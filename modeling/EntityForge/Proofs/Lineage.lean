import EntityForge.Proofs.Agreement
import Mathlib.Data.List.Perm.Subperm

/-!
# The line of superclasses

From a class the walk goes on to the superclass that it names, and from there likewise. It comes to an end in one of
three ways, whatever the links are: at a class without a superclass, at a name that no class bears, or at a name that
came up before. Each of these ends is one answer of `ancestors`, and no other way leads to that answer.

An attribute is looked up along the same line. The class where it is found is told from the class where the search began
by its name alone; that suffices, since no name comes up twice on a line that has an end.

Main statements: `ancestors_tell_where_the_line_ends`, `resolve_takes_the_nearest`.
-/

namespace EntityForge

namespace Metamodel

variable {model : Metamodel} {c last : ClassModel} {path : List ClassModel}

/-! ## Ends of the walk -/

/-- `path` is the whole line of superclasses of `c`, nearest first: it ends at a class without a superclass, and no name
comes up twice on it, that of `c` included. -/
structure Lineage (model : Metamodel) (c : ClassModel) (path : List ClassModel) : Prop where
  climbs : ∃ last, model.Climb c path last ∧ last.superclass = none
  distinct : ((c :: path).map (·.name)).Nodup

/-- The walk from `c` comes to a class, the referrer, whose superclass is a name that no class bears. No name has come
up twice before. -/
def BreaksOff (model : Metamodel) (c : ClassModel) (name referrer : String) : Prop :=
  ∃ path last, model.Climb c path last ∧ ((c :: path).map (·.name)).Nodup
    ∧ last.name = referrer ∧ last.superclass = some name ∧ ∀ d ∈ model.classes, d.name ≠ name

/-- The walk from `c` comes to a name for the second time, be it that of `c` or one further up. -/
def ComesRound (model : Metamodel) (c : ClassModel) : Prop :=
  ∃ path last again, model.Climb c path last ∧ ((c :: path).map (·.name)).Nodup
    ∧ model.Extends last again ∧ again.name ∈ (c :: path).map (·.name)

theorem class?_eq_none_iff {name : String} : model.class? name = none ↔ ∀ d ∈ model.classes, d.name ≠ name := by
  simp [class?]

/-- As long as no name comes up twice, the walk makes no more steps than there are classes. -/
theorem Climb.length_le (climb : model.Climb c path last) (distinct : ((c :: path).map (·.name)).Nodup) :
    path.length ≤ model.classes.length := by
  rw [List.map_cons, List.nodup_cons] at distinct
  have hpath : path.Nodup := distinct.2.of_map
  exact (List.subperm_of_subset hpath climb.mem_classes).length_le

/-- What the walk finds from `c` is the path that it has climbed and what it finds from there. -/
theorem ancestorsAmong_of_climb {start : String} {seen : List String} (climb : model.Climb c path last)
    (fresh : (seen ++ path.map (·.name)).Nodup) :
    model.ancestorsAmong start (model.unseenClasses seen) c
      = (model.ancestorsAmong start (model.unseenClasses (seen ++ path.map (·.name))) last).map (path ++ ·) := by
  induction climb generalizing seen with
  | here =>
    rw [List.map_nil, List.append_nil]
    cases model.ancestorsAmong start (model.unseenClasses seen) _ <;> rfl
  | @up c p last path hp rest ih =>
    obtain ⟨name, hname, hclass⟩ := hp
    obtain rfl : p.name = name := name_of_class? hclass
    rw [List.map_cons, ← List.singleton_append, ← List.append_assoc] at fresh
    have hnew : p.name ∉ seen := fun hseen =>
      List.disjoint_of_nodup_append fresh.of_append_left hseen (List.mem_singleton_self _)
    rw [ancestorsAmong_of_fresh hname hclass hnew, ih fresh, List.map_cons,
      List.append_cons seen p.name (path.map (·.name))]
    cases model.ancestorsAmong start (model.unseenClasses (seen ++ [p.name] ++ path.map (·.name))) last <;> rfl

theorem ancestors_of_climb (climb : model.Climb c path last) (distinct : ((c :: path).map (·.name)).Nodup) :
    model.ancestors c
      = (model.ancestorsAmong c.name (model.unseenClasses ((c :: path).map (·.name))) last).map (path ++ ·) := by
  rw [ancestors, withoutName_classes]
  exact ancestorsAmong_of_climb climb distinct

/-- The ancestors are found exactly when the line of superclasses has an end, and are that line. -/
theorem ancestors_eq_ok_iff : model.ancestors c = .ok path ↔ model.Lineage c path := by
  constructor
  · intro h
    have houtcome := model.ancestors_outcome c
    rw [h] at houtcome
    cases houtcome with
    | top climb fresh htop => exact ⟨⟨_, climb, htop⟩, fresh⟩
  · rintro ⟨⟨last, climb, htop⟩, distinct⟩
    rw [ancestors_of_climb climb distinct, ancestorsAmong_of_top htop]
    exact congrArg Except.ok (List.append_nil path)

/-- An unknown class is reported exactly when the walk comes to it, under its name and that of the class before it. -/
theorem ancestors_eq_unknownClass_iff {name referrer : String} :
    model.ancestors c = .error (.unknownClass name referrer) ↔ model.BreaksOff c name referrer := by
  constructor
  · intro h
    have houtcome := model.ancestors_outcome c
    rw [h] at houtcome
    cases houtcome with
    | unknown climb fresh hname hnone => exact ⟨_, _, climb, fresh, rfl, hname, class?_eq_none_iff.mp hnone⟩
  · rintro ⟨path, last, climb, distinct, rfl, hname, hnone⟩
    rw [ancestors_of_climb climb distinct, ancestorsAmong_of_unknown hname (class?_eq_none_iff.mpr hnone)]
    rfl

/-- A circle is reported exactly when a name comes up again, and always for the class where the walk began. -/
theorem ancestors_eq_cyclicHierarchy_iff {start : String} :
    model.ancestors c = .error (.cyclicHierarchy start) ↔ start = c.name ∧ model.ComesRound c := by
  constructor
  · intro h
    have houtcome := model.ancestors_outcome c
    rw [h] at houtcome
    cases houtcome with
    | again climb fresh hp hseen => exact ⟨rfl, _, _, _, climb, fresh, hp, hseen⟩
  · rintro ⟨rfl, path, last, again, climb, distinct, ⟨name, hname, hclass⟩, hseen⟩
    rw [name_of_class? hclass] at hseen
    rw [ancestors_of_climb climb distinct, ancestorsAmong_of_seen hname hclass hseen]
    rfl

/-- The walk ends in one of the three ways. -/
theorem exists_end (model : Metamodel) (c : ClassModel) :
    (∃ path, model.Lineage c path) ∨ (∃ name referrer, model.BreaksOff c name referrer) ∨ model.ComesRound c := by
  have houtcome := model.ancestors_outcome c
  cases h : model.ancestors c with
  | ok path => exact .inl ⟨path, ancestors_eq_ok_iff.mp h⟩
  | error e =>
    rw [h] at houtcome
    cases houtcome with
    | unknown => exact .inr (.inl ⟨_, _, ancestors_eq_unknownClass_iff.mp h⟩)
    | again => exact .inr (.inr (ancestors_eq_cyclicHierarchy_iff.mp h).2)

/-- **Where the line of superclasses ends.** From any class of any metamodel, the walk over superclasses makes no more
steps without a repeated name than there are classes, and ends in one of three ways: with the whole line, at an unknown
name, or at a name that came up before. The ancestors are the line in the first case; in the second, the unknown name is
reported with the class that refers to it, and in the third, a circle for the class where the walk began. -/
theorem ancestors_tell_where_the_line_ends (model : Metamodel) (c : ClassModel) :
    (∀ path last, model.Climb c path last → ((c :: path).map (·.name)).Nodup →
        path.length ≤ model.classes.length)
      ∧ ((∃ path, model.Lineage c path) ∨ (∃ name referrer, model.BreaksOff c name referrer) ∨ model.ComesRound c)
      ∧ (∀ path, model.ancestors c = .ok path ↔ model.Lineage c path)
      ∧ (∀ name referrer, model.ancestors c = .error (.unknownClass name referrer) ↔ model.BreaksOff c name referrer)
      ∧ ∀ start, model.ancestors c = .error (.cyclicHierarchy start) ↔ start = c.name ∧ model.ComesRound c :=
  ⟨fun _ _ climb distinct => climb.length_le distinct, exists_end model c, fun _ => ancestors_eq_ok_iff,
    fun _ _ => ancestors_eq_unknownClass_iff, fun _ => ancestors_eq_cyclicHierarchy_iff⟩

/-- An entity that extends the class of a name. -/
def entityBelow (superclass name : String) : ClassModel :=
  { ClassModel.empty name .entity with superclass := some superclass }

/-- A leaf below two classes that extend each other. -/
def loopedLeaf : Metamodel :=
  { Metamodel.empty "shop" with
    classes := [entityBelow "Inner" "Leaf", entityBelow "Outer" "Inner", entityBelow "Inner" "Outer"] }

/-- The walk from the leaf takes two steps, and the circle above is reported for the leaf. -/
theorem ancestors_tell_where_the_line_ends_loopedLeaf :
    loopedLeaf.Climb (entityBelow "Inner" "Leaf") [entityBelow "Outer" "Inner", entityBelow "Inner" "Outer"]
        (entityBelow "Inner" "Outer")
      ∧ (["Leaf", "Inner", "Outer"] : List String).Nodup
      ∧ [entityBelow "Outer" "Inner", entityBelow "Inner" "Outer"].length ≤ loopedLeaf.classes.length
      ∧ loopedLeaf.ancestors (entityBelow "Inner" "Leaf") = .error (.cyclicHierarchy "Leaf") := by
  have hinner : loopedLeaf.Extends (entityBelow "Inner" "Leaf") (entityBelow "Outer" "Inner") := ⟨"Inner", rfl, rfl⟩
  have houter : loopedLeaf.Extends (entityBelow "Outer" "Inner") (entityBelow "Inner" "Outer") := ⟨"Outer", rfl, rfl⟩
  have hback : loopedLeaf.Extends (entityBelow "Inner" "Outer") (entityBelow "Outer" "Inner") := ⟨"Inner", rfl, rfl⟩
  have climb := Climb.up hinner (.up houter .here)
  have distinct : (["Leaf", "Inner", "Outer"] : List String).Nodup := by decide
  obtain ⟨hlength, -, -, -, hcyclic⟩ :=
    ancestors_tell_where_the_line_ends loopedLeaf (entityBelow "Inner" "Leaf")
  exact ⟨climb, distinct, hlength _ _ climb distinct,
    (hcyclic "Leaf").mpr ⟨rfl, _, _, _, climb, distinct, hback, by decide⟩⟩

end Metamodel

/-! ## Attributes on the line -/

namespace ClassModel

/-- The class itself has an attribute of this name. -/
def Declares (c : ClassModel) (name : String) : Prop :=
  ∃ a ∈ c.attributes, a.name = name

instance (c : ClassModel) (name : String) : Decidable (c.Declares name) :=
  inferInstanceAs (Decidable (∃ a ∈ c.attributes, a.name = name))

theorem attribute?_eq_none_iff {c : ClassModel} {name : String} : c.attribute? name = none ↔ ¬ c.Declares name := by
  simp [attribute?, Declares]

theorem declares_iff_exists {c : ClassModel} {name : String} :
    c.Declares name ↔ ∃ a, c.attribute? name = some a := by
  rw [← Option.ne_none_iff_exists', ne_eq, attribute?_eq_none_iff, not_not]

/-- The attribute found under a name is the first that bears it. -/
theorem attribute?_eq_some_iff {c : ClassModel} {name : String} {a : Attribute} :
    c.attribute? name = some a
      ↔ a.name = name ∧ ∃ before after, c.attributes = before ++ a :: after ∧ ∀ b ∈ before, b.name ≠ name := by
  simp [attribute?, List.find?_eq_some_iff_append]

end ClassModel

namespace Metamodel

variable {model : Metamodel} {c : ClassModel} {name : String} {classes : List ClassModel} {r : Resolved}

/-- `r` is the first attribute of a name in the first of the classes that declares one. -/
structure Nearest (name : String) (classes : List ClassModel) (r : Resolved) : Prop where
  owner : ∃ before after, classes = before ++ r.owner :: after ∧ ∀ d ∈ before, ¬ d.Declares name
  name_eq : r.declared.name = name
  declared : ∃ before after, r.owner.attributes = before ++ r.declared :: after ∧ ∀ b ∈ before, b.name ≠ name

/-- In a class that declares the name, its first attribute of the name is the nearest. -/
theorem nearest_of_attribute?_eq_some {a : Attribute} (h : c.attribute? name = some a) :
    Nearest name (c :: classes) { declared := a, owner := c } := by
  obtain ⟨hname, hfirst⟩ := ClassModel.attribute?_eq_some_iff.mp h
  exact ⟨⟨[], classes, rfl, by simp⟩, hname, hfirst⟩

/-- A class that does not declare the name is passed by. -/
theorem Nearest.cons (h : Nearest name classes r) (hnot : ¬ c.Declares name) : Nearest name (c :: classes) r := by
  obtain ⟨⟨before, after, rfl, hbefore⟩, hname, hdeclared⟩ := h
  exact ⟨⟨c :: before, after, rfl, List.forall_mem_cons.mpr ⟨hnot, hbefore⟩⟩, hname, hdeclared⟩

theorem Nearest.declares (h : Nearest name classes r) : r.owner.Declares name := by
  obtain ⟨before, after, hattributes, -⟩ := h.declared
  refine ⟨r.declared, ?_, h.name_eq⟩
  rw [hattributes]
  exact List.mem_append_right before List.mem_cons_self

theorem nearest_of_findAttribute?_eq_some (h : findAttribute? name classes = some r) : Nearest name classes r := by
  induction classes with
  | nil => exact absurd h (by simp [findAttribute?])
  | cons d rest ih =>
    rw [findAttribute?] at h
    cases hown : d.attribute? name with
    | some a =>
      rw [hown] at h
      rw [← Option.some.inj h]
      exact nearest_of_attribute?_eq_some hown
    | none =>
      rw [hown] at h
      exact (ih h).cons (ClassModel.attribute?_eq_none_iff.mp hown)

theorem findAttribute?_eq_none_iff : findAttribute? name classes = none ↔ ∀ d ∈ classes, ¬ d.Declares name := by
  induction classes with
  | nil => simp [findAttribute?]
  | cons d rest ih =>
    rw [findAttribute?, List.forall_mem_cons, ← ih, ← ClassModel.attribute?_eq_none_iff]
    cases d.attribute? name with
    | some a => simp
    | none => simp

/-- A class that declares the name finds it in itself. -/
theorem resolve_of_attribute?_eq_some {a : Attribute} (h : c.attribute? name = some a) :
    model.resolve c name = .ok { declared := a, owner := c } := by
  rw [resolve, h]

/-- A class that does not declare the name goes by its ancestors. -/
theorem resolve_of_not_declares (h : ¬ c.Declares name) :
    model.resolve c name
      = model.ancestors c >>= fun path =>
        (findAttribute? name path).elim (.error (.unknownAttribute c.name name)) .ok := by
  rw [resolve, ClassModel.attribute?_eq_none_iff.mpr h]
  refine bind_congr fun path => ?_
  cases findAttribute? name path <;> rfl

/-- A name is found in the class itself, or else in its line of superclasses. -/
theorem nearest_of_resolve_eq_ok (h : model.resolve c name = .ok r) :
    c.Declares name ∧ r.owner = c ∧ Nearest name [c] r
      ∨ ¬ c.Declares name ∧ ∃ path, model.Lineage c path ∧ r.owner ∈ path ∧ Nearest name (c :: path) r := by
  cases hown : c.attribute? name with
  | some a =>
    rw [resolve_of_attribute?_eq_some hown] at h
    rw [← Except.ok.inj h]
    exact .inl ⟨ClassModel.declares_iff_exists.mpr ⟨a, hown⟩, rfl, nearest_of_attribute?_eq_some hown⟩
  | none =>
    have hnot := ClassModel.attribute?_eq_none_iff.mp hown
    rw [resolve_of_not_declares hnot] at h
    obtain ⟨path, hpath, h⟩ := bind_eq_ok_iff.mp h
    cases hfound : findAttribute? name path with
    | none =>
      rw [hfound] at h
      exact absurd h (by simp)
    | some found =>
      rw [hfound] at h
      rw [← Except.ok.inj h]
      exact .inr ⟨hnot, path, ancestors_eq_ok_iff.mp hpath, (mem_of_findAttribute?_eq_some hfound).1,
        (nearest_of_findAttribute?_eq_some hfound).cons hnot⟩

/-- Comparing names tells whether the class itself declares what it found: on its line no other class has its name. -/
theorem isOwnedBy_iff (h : model.resolve c name = .ok r) : r.isOwnedBy c = true ↔ c.Declares name := by
  rw [Resolved.isOwnedBy, beq_iff_eq]
  rcases nearest_of_resolve_eq_ok h with ⟨hdeclares, howner, -⟩ | ⟨hnot, path, hline, howner, -⟩
  · exact iff_of_true (congrArg _ howner) hdeclares
  · have hdistinct := hline.distinct
    rw [List.map_cons, List.nodup_cons] at hdistinct
    refine iff_of_false (fun hsame => ?_) hnot
    exact hdistinct.1 (hsame ▸ List.mem_map_of_mem howner)

theorem exists_resolve_eq_ok_iff :
    (∃ r, model.resolve c name = .ok r)
      ↔ c.Declares name ∨ ∃ path, model.Lineage c path ∧ ∃ d ∈ path, d.Declares name := by
  constructor
  · rintro ⟨r, h⟩
    rcases nearest_of_resolve_eq_ok h with ⟨hdeclares, -⟩ | ⟨-, path, hline, howner, hnearest⟩
    · exact .inl hdeclares
    · exact .inr ⟨path, hline, r.owner, howner, hnearest.declares⟩
  · intro h
    by_cases hdeclares : c.Declares name
    · obtain ⟨a, ha⟩ := ClassModel.declares_iff_exists.mp hdeclares
      exact ⟨_, resolve_of_attribute?_eq_some ha⟩
    · obtain ⟨path, hline, d, hd, hdeclaresAbove⟩ := h.resolve_left hdeclares
      rw [resolve_of_not_declares hdeclares, ancestors_eq_ok_iff.mpr hline]
      cases hfound : findAttribute? name path with
      | none => exact absurd hdeclaresAbove (findAttribute?_eq_none_iff.mp hfound d hd)
      | some found => exact ⟨found, by simp [hfound, bind, Except.bind]⟩

/-- Looking a name up fails as the walk does, or else because no class of the whole line declares it. -/
theorem resolve_eq_error_iff {e : LookupError} :
    model.resolve c name = .error e
      ↔ ¬ c.Declares name ∧ (model.ancestors c = .error e
        ∨ ∃ path, model.Lineage c path ∧ (∀ d ∈ path, ¬ d.Declares name) ∧ e = .unknownAttribute c.name name) := by
  by_cases hdeclares : c.Declares name
  · obtain ⟨a, ha⟩ := ClassModel.declares_iff_exists.mp hdeclares
    simp [resolve_of_attribute?_eq_some ha, hdeclares]
  · rw [resolve_of_not_declares hdeclares, bind_eq_error_iff]
    refine ⟨fun h => ⟨hdeclares, h.imp_right ?_⟩, fun h => h.2.imp_right ?_⟩
    · rintro ⟨path, hpath, h⟩
      cases hfound : findAttribute? name path with
      | none =>
        rw [hfound] at h
        exact ⟨path, ancestors_eq_ok_iff.mp hpath, findAttribute?_eq_none_iff.mp hfound, (Except.error.inj h).symm⟩
      | some found =>
        rw [hfound] at h
        exact absurd h (by simp)
    · rintro ⟨path, hline, hnone, rfl⟩
      refine ⟨path, ancestors_eq_ok_iff.mpr hline, ?_⟩
      rw [findAttribute?_eq_none_iff.mpr hnone]
      rfl

/-- **The nearest declaration is found.** A name is looked up successfully in a class exactly when the class itself
declares it, or its line of superclasses has an end and a class on it declares the name. What is found is the first
attribute of the name in the nearest class that declares it, and comparing names tells exactly whether that class is the
one where the search began. When nothing is found, the error is that of the walk over the superclasses if it has one, and
otherwise says that the attribute is unknown. -/
theorem resolve_takes_the_nearest (model : Metamodel) (c : ClassModel) (name : String) :
    ((∃ r, model.resolve c name = .ok r)
        ↔ c.Declares name ∨ ∃ path, model.Lineage c path ∧ ∃ d ∈ path, d.Declares name)
      ∧ (∀ r, model.resolve c name = .ok r →
        (c.Declares name ∧ Nearest name [c] r ∨ ∃ path, model.Lineage c path ∧ Nearest name (c :: path) r)
          ∧ (r.isOwnedBy c = true ↔ c.Declares name))
      ∧ ∀ e, model.resolve c name = .error e
        ↔ ¬ c.Declares name ∧ (model.ancestors c = .error e
          ∨ ∃ path, model.Lineage c path ∧ (∀ d ∈ path, ¬ d.Declares name)
            ∧ e = .unknownAttribute c.name name) := by
  refine ⟨exists_resolve_eq_ok_iff, fun r h => ⟨?_, isOwnedBy_iff h⟩, fun _ => resolve_eq_error_iff⟩
  rcases nearest_of_resolve_eq_ok h with ⟨hdeclares, -, hnearest⟩ | ⟨-, path, hline, -, hnearest⟩
  · exact .inl ⟨hdeclares, hnearest⟩
  · exact .inr ⟨path, hline, hnearest⟩

/-- A user two levels below a base class whose name a later class bears too. The class between them has two attributes of
the name of the key, as has the base class. -/
def layeredUser : Metamodel :=
  { Metamodel.empty "shop" with
    classes :=
      [{ entityBelow "Account" "User" with attributes := [.plain "email" "String"] },
        { entityBelow "Base" "Account" with attributes := [.plain "id" "Long", .plain "id" "String"] },
        { ClassModel.empty "Base" .entity with attributes := [.plain "id" "int"] },
        { ClassModel.empty "Base" .bean with attributes := [.plain "email" "int"] }] }

/-- From the user, the name of the key stands for the first of the two attributes in the class between, and the user does
not own it. -/
theorem resolve_takes_the_nearest_layeredUser :
    ∃ user r, layeredUser.class? "User" = some user ∧ layeredUser.resolve user "id" = .ok r
      ∧ (r.owner.name, r.declared.dataType, r.isOwnedBy user) = ("Account", "Long", false)
      ∧ ¬ user.Declares "id" ∧ ∃ path, layeredUser.Lineage user path ∧ Nearest "id" (user :: path) r := by
  let user := { entityBelow "Account" "User" with attributes := [Attribute.plain "email" "String"] }
  have hsummary : (layeredUser.resolve user "id").toOption.map
      (fun r => (r.owner.name, r.declared.dataType, r.isOwnedBy user)) = some ("Account", "Long", false) := by
    decide +kernel
  obtain ⟨r, hresolve, hsummary⟩ := Option.map_eq_some_iff.mp hsummary
  replace hresolve := toOption_eq_some_iff.mp hresolve
  obtain ⟨hnearest, howned⟩ := (resolve_takes_the_nearest layeredUser user "id").2.1 r hresolve
  have hnot : ¬ user.Declares "id" := by decide
  exact ⟨user, r, rfl, hresolve, hsummary, hnot, hnearest.resolve_left fun h => hnot h.1⟩

end Metamodel

end EntityForge
