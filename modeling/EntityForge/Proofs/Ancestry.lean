import EntityForge.Metamodel.Hierarchy
import EntityForge.Proofs.Traversal
import Mathlib.Data.List.Nodup
import Mathlib.Logic.Relation

/-!
# Climbing the class hierarchy

The superclasses of a class, seen as a relation between classes. `ancestors` follows that relation: it ends at a class
that names no superclass, at a name that no class bears, or at a name that came up before (`ancestors_outcome`). In a
metamodel whose names are all different, the last means that the relation comes round in a circle.
-/

namespace EntityForge.Metamodel

variable {model : Metamodel}

/-! ## The relation to the superclass -/

/-- `p` is the class of the metamodel that `c` names as its superclass. -/
def Extends (model : Metamodel) (c p : ClassModel) : Prop :=
  ∃ name, c.superclass = some name ∧ model.class? name = some p

/-- The class found under a name bears it. -/
theorem name_of_class? {name : String} {c : ClassModel} (h : model.class? name = some c) :
    c.name = name := by
  simpa using List.find?_some h

/-- The class found under a name belongs to the metamodel. -/
theorem mem_of_class? {name : String} {c : ClassModel} (h : model.class? name = some c) :
    c ∈ model.classes :=
  List.mem_of_find?_eq_some h

/-- A class has one superclass at most. -/
theorem extends_rightUnique (model : Metamodel) : Relator.RightUnique model.Extends := by
  rintro c p q ⟨name, hname, hp⟩ ⟨other, hother, hq⟩
  rw [hname, Option.some.injEq] at hother
  subst hother
  rw [hp, Option.some.injEq] at hq
  exact hq

/-- A class without a superclass extends none. -/
theorem not_extends_of_top {c p : ClassModel} (htop : c.superclass = none) :
    ¬ model.Extends c p := by
  rintro ⟨name, hname, -⟩
  rw [htop] at hname
  exact absurd hname (by simp)

/-- A class whose superclass is unknown extends none. -/
theorem not_extends_of_unknown {c p : ClassModel} {name : String}
    (hname : c.superclass = some name) (hnone : model.class? name = none) :
    ¬ model.Extends c p := by
  rintro ⟨other, hother, hp⟩
  rw [hname, Option.some.injEq] at hother
  subst hother
  rw [hnone] at hp
  exact absurd hp (by simp)

/-- Ancestors belong to the metamodel. -/
theorem mem_classes_of_transGen {c a : ClassModel} (h : Relation.TransGen model.Extends c a) :
    a ∈ model.classes := by
  obtain ⟨_, -, _, -, hclass⟩ := Relation.TransGen.tail'_iff.mp h
  exact mem_of_class? hclass

/-- `path` lists the superclasses of `c`, nearest first, up to `last`. -/
inductive Climb (model : Metamodel) : ClassModel → List ClassModel → ClassModel → Prop
  | here {c : ClassModel} : Climb model c [] c
  | up {c p last : ClassModel} {path : List ClassModel} (hp : model.Extends c p)
      (rest : Climb model p path last) : Climb model c (p :: path) last

/-- The class where a climb ends is an ancestor of all on its way. -/
theorem Climb.reaches {c last : ClassModel} {path : List ClassModel}
    (h : model.Climb c path last) :
    ∀ d ∈ c :: path, Relation.ReflTransGen model.Extends d last := by
  induction h with
  | here =>
    intro d hd
    rw [List.mem_singleton.mp hd]
  | up hp rest ih =>
    intro d hd
    rcases List.mem_cons.mp hd with rfl | hd
    · exact (ih _ List.mem_cons_self).head hp
    · exact ih d hd

/-- All on the way of a climb are reached from its start. -/
theorem Climb.reached {c last : ClassModel} {path : List ClassModel}
    (h : model.Climb c path last) :
    ∀ d ∈ c :: path, Relation.ReflTransGen model.Extends c d := by
  induction h with
  | here =>
    intro d hd
    rw [List.mem_singleton.mp hd]
  | up hp rest ih =>
    intro d hd
    rcases List.mem_cons.mp hd with rfl | hd
    · exact .refl
    · exact (ih d hd).head hp

/-- Superclasses belong to the metamodel. -/
theorem Climb.mem_classes {c last : ClassModel} {path : List ClassModel}
    (h : model.Climb c path last) : ∀ d ∈ path, d ∈ model.classes := by
  induction h with
  | here => simp
  | up hp rest ih =>
    obtain ⟨name, -, hclass⟩ := hp
    intro d hd
    rcases List.mem_cons.mp hd with rfl | hd
    · exact mem_of_class? hclass
    · exact ih d hd

/-- All on the way of a climb are proper ancestors of its start. -/
theorem Climb.transGen {c last : ClassModel} {path : List ClassModel}
    (h : model.Climb c path last) : ∀ d ∈ path, Relation.TransGen model.Extends c d := by
  induction h with
  | here => simp
  | up hp rest ih =>
    intro d hd
    rcases List.mem_cons.mp hd with rfl | hd
    · exact .single hp
    · exact .head hp (ih d hd)

/-- A climb to a class without a superclass passes by all proper ancestors of its start. -/
theorem Climb.mem_of_transGen {c last a : ClassModel} {path : List ClassModel}
    (h : model.Climb c path last) (htop : last.superclass = none)
    (ha : Relation.TransGen model.Extends c a) : a ∈ path := by
  induction h with
  | here =>
    obtain ⟨p, hp, -⟩ := Relation.TransGen.head'_iff.mp ha
    exact absurd hp (not_extends_of_top htop)
  | up hp rest ih =>
    obtain ⟨q, hq, hqa⟩ := Relation.TransGen.head'_iff.mp ha
    obtain rfl := extends_rightUnique model hp hq
    rcases Relation.reflTransGen_iff_eq_or_transGen.mp hqa with rfl | hqa
    · exact List.mem_cons_self
    · exact List.mem_cons_of_mem _ (ih htop hqa)

/-! ## Where a climb ends -/

/-- How the climb from `c` ends when the names in `seen` came up before. `start` is the class that is named when a
name comes up again. -/
inductive Outcome (model : Metamodel) (start : String) (seen : List String) (c : ClassModel) :
    Except LookupError (List ClassModel) → Prop
  /-- At a class without a superclass. -/
  | top {path : List ClassModel} {last : ClassModel} (climb : model.Climb c path last)
      (fresh : (seen ++ path.map (·.name)).Nodup) (htop : last.superclass = none) :
      Outcome model start seen c (.ok path)
  /-- At a name that no class bears. -/
  | unknown {path : List ClassModel} {last : ClassModel} {name : String}
      (climb : model.Climb c path last) (fresh : (seen ++ path.map (·.name)).Nodup)
      (hname : last.superclass = some name) (hnone : model.class? name = none) :
      Outcome model start seen c (.error (.unknownClass name last.name))
  /-- At a name that came up before. -/
  | again {path : List ClassModel} {last p : ClassModel} (climb : model.Climb c path last)
      (fresh : (seen ++ path.map (·.name)).Nodup) (hp : model.Extends last p)
      (hseen : p.name ∈ seen ++ path.map (·.name)) :
      Outcome model start seen c (.error (.cyclicHierarchy start))

/-- The walk over the superclasses ends at a class without one. -/
theorem ancestorsAmong_of_top {model : Metamodel} {start : String} {unseen : List ClassModel}
    {c : ClassModel} (htop : c.superclass = none) : model.ancestorsAmong start unseen c = .ok [] := by
  rw [ancestorsAmong]
  split
  · rfl
  · next hname =>
    rw [htop] at hname
    exact absurd hname (by simp)

/-- In a class without a superclass, a name stands for an attribute of the class itself. -/
theorem declared_of_resolve {model : Metamodel} {c : ClassModel} {name : String} {r : Resolved}
    (htop : c.superclass = none) (h : model.resolve c name = .ok r) :
    r.declared ∈ c.attributes ∧ r.declared.name = name := by
  unfold resolve at h
  cases hown : c.attribute? name with
  | none =>
    rw [hown, ancestors, ancestorsAmong_of_top htop] at h
    exact absurd h (by simp [findAttribute?, bind, Except.bind])
  | some declared =>
    rw [hown] at h
    cases h
    exact ⟨List.mem_of_find?_eq_some hown, by simpa using List.find?_some hown⟩

/-- The classes whose names did not come up before. -/
def unseenClasses (model : Metamodel) (seen : List String) : List ClassModel :=
  model.classes.filter fun d => d.name ∉ seen

/-- A name that came up before leads to no unseen class, and any other name to the class of that name. -/
theorem find?_unseenClasses (model : Metamodel) (seen : List String) (name : String) :
    (model.unseenClasses seen).find? (·.name == name)
      = if name ∈ seen then none else model.class? name := by
  rw [unseenClasses, List.find?_filter]
  split
  · next hseen =>
    rw [List.find?_eq_none]
    intro d _ hd
    simp only [decide_eq_true_eq, beq_iff_eq] at hd
    exact hd.1 (hd.2 ▸ hseen)
  · next hseen =>
    rw [class?]
    congr 1
    funext d
    by_cases hd : d.name = name <;> simp [hd, hseen]

theorem withoutName_unseenClasses (model : Metamodel) (seen : List String) (name : String) :
    withoutName name (model.unseenClasses seen) = model.unseenClasses (seen ++ [name]) := by
  rw [withoutName, unseenClasses, unseenClasses, List.filter_filter]
  congr 1
  funext d
  by_cases hd : d.name = name <;> simp [hd]

/-- Leaving out one name leaves the classes whose names are other ones. -/
theorem withoutName_classes (model : Metamodel) (name : String) :
    withoutName name model.classes = model.unseenClasses [name] := by
  rw [unseenClasses, withoutName]
  congr 1
  funext d
  by_cases hd : d.name = name <;> simp [hd]

/-- One step up from `c` to its superclass `p`, whose name is new, and then any end that the climb from `p` has. -/
theorem Outcome.step {start : String} {seen : List String} {c p : ClassModel}
    {result : Except LookupError (List ClassModel)} (hp : model.Extends c p)
    (h : Outcome model start (seen ++ [p.name]) p result) :
    Outcome model start seen c (result.map (p :: ·)) := by
  cases h with
  | top climb fresh htop => exact .top (.up hp climb) (by simpa using fresh) htop
  | unknown climb fresh hname hnone =>
    exact .unknown (.up hp climb) (by simpa using fresh) hname hnone
  | again climb fresh hq hseen =>
    exact .again (.up hp climb) (by simpa using fresh) hq (by simpa using hseen)

/-- The walk over unseen classes ends as a climb does. -/
theorem ancestorsAmong_outcome (model : Metamodel) (start : String) (seen : List String)
    (c : ClassModel) (hseen : seen.Nodup) :
    Outcome model start seen c
      (model.ancestorsAmong start (model.unseenClasses seen) c) := by
  -- Each step up leaves fewer unseen classes.
  induction hn : (model.unseenClasses seen).length using Nat.strongRecOn
    generalizing seen c with
  | ind n ih =>
    rw [ancestorsAmong]
    split
    · next htop => exact .top .here (by simpa using hseen) htop
    · next name hname =>
      have hfind := find?_unseenClasses model seen name
      split
      -- The superclass is unseen, so its name is new and the climb goes on from it.
      · next p hp =>
        have hlt := length_withoutName_lt hp
        rw [hp] at hfind
        have hfresh : name ∉ seen := by
          intro hmem
          rw [if_pos hmem] at hfind
          exact absurd hfind (by simp)
        rw [if_neg hfresh] at hfind
        have hpname : p.name = name := name_of_class? hfind.symm
        rw [withoutName_unseenClasses, ← hpname] at hlt ⊢
        have hnodup : (seen ++ [p.name]).Nodup := by
          rw [List.nodup_append]
          refine ⟨hseen, by simp, ?_⟩
          intro a ha b hb
          rw [List.mem_singleton] at hb
          rintro rfl
          exact hfresh (hpname ▸ hb ▸ ha)
        have hrest := ih _ (hn ▸ hlt) (seen ++ [p.name]) p hnodup rfl
        exact hrest.step ⟨name, hname, hfind.symm⟩
      · next hnone =>
        rw [hnone] at hfind
        split
        -- Some class bears the name, but no unseen one: the name came up before.
        · next p hp =>
          have hmem : name ∈ seen := by
            by_contra hne
            rw [if_neg hne, hp] at hfind
            exact absurd hfind (by simp)
          exact .again .here (by simpa using hseen) ⟨name, hname, hp⟩
            (by simpa [name_of_class? hp] using hmem)
        · next hp => exact .unknown .here (by simpa using hseen) hname hp

/-- The ancestors of a class are found by climbing from it, its own name having come up. -/
theorem ancestors_outcome (model : Metamodel) (c : ClassModel) :
    Outcome model c.name [c.name] c (model.ancestors c) := by
  have h := ancestorsAmong_outcome model c.name [c.name] c (by simp)
  rw [← withoutName_classes] at h
  exact h

/-! ## Ancestors and their attributes -/

/-- The ancestors found for a class are its proper ancestors. -/
theorem mem_ancestors_iff {c : ClassModel} {path : List ClassModel}
    (h : model.ancestors c = .ok path) {a : ClassModel} :
    a ∈ path ↔ Relation.TransGen model.Extends c a := by
  have houtcome := model.ancestors_outcome c
  rw [h] at houtcome
  cases houtcome with
  | top climb _ htop => exact ⟨climb.transGen a, climb.mem_of_transGen htop⟩

/-- No ancestor found for a class bears its name. -/
theorem name_ne_of_mem_ancestors {c : ClassModel} {path : List ClassModel}
    (h : model.ancestors c = .ok path) {a : ClassModel} (ha : a ∈ path) : a.name ≠ c.name := by
  have houtcome := model.ancestors_outcome c
  rw [h] at houtcome
  cases houtcome with
  | top _ fresh _ =>
    rw [List.singleton_append, List.nodup_cons] at fresh
    intro hname
    exact fresh.1 (hname ▸ List.mem_map_of_mem ha)

/-- An attribute found among classes is declared by one of them under its name. -/
theorem mem_of_findAttribute?_eq_some {name : String} {classes : List ClassModel} {r : Resolved}
    (h : findAttribute? name classes = some r) :
    r.owner ∈ classes ∧ r.declared ∈ r.owner.attributes ∧ r.declared.name = name := by
  induction classes with
  | nil => exact absurd h (by simp [findAttribute?])
  | cons c rest ih =>
    rw [findAttribute?] at h
    split at h
    · next declared hdeclared =>
      rw [← Option.some.inj h]
      exact ⟨List.mem_cons_self, List.mem_of_find?_eq_some hdeclared,
        by simpa using List.find?_some hdeclared⟩
    · obtain ⟨howner, hdeclared⟩ := ih h
      exact ⟨List.mem_cons_of_mem c howner, hdeclared⟩

/-- The attribute that a name stands for is declared under that name by the class itself or by one of its proper
ancestors. -/
theorem resolve_spec {c : ClassModel} {name : String} {r : Resolved}
    (h : model.resolve c name = .ok r) :
    r.declared ∈ r.owner.attributes ∧ r.declared.name = name
      ∧ (r.owner = c ∨ Relation.TransGen model.Extends c r.owner ∧ r.owner.name ≠ c.name) := by
  unfold resolve at h
  split at h
  · next declared hdeclared =>
    rw [← Except.ok.inj h]
    exact ⟨List.mem_of_find?_eq_some hdeclared, by simpa using List.find?_some hdeclared, .inl rfl⟩
  · obtain ⟨path, hpath, h⟩ := bind_eq_ok_iff.mp h
    split at h
    · next found hfound =>
      rw [← Except.ok.inj h]
      obtain ⟨howner, hdeclared, hname⟩ := mem_of_findAttribute?_eq_some hfound
      exact ⟨hdeclared, hname, .inr ⟨(mem_ancestors_iff hpath).mp howner,
        name_ne_of_mem_ancestors hpath howner⟩⟩
    · exact absurd h (by simp)

end EntityForge.Metamodel
