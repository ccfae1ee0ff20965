import EntityForge.Generation.Order
import EntityForge.Proofs.Traversal
import Mathlib.Data.List.Nodup
import Mathlib.Tactic.ByContra
import Mathlib.Tactic.Tauto

/-!
# The order of a stage

Classes are told apart by their positions in the list that is ordered, since several may bear one name. A position is
placeable when its class has nothing to wait for, or waits for the name of a class at a placeable position
(`Placeable`). Ordering places exactly the placeable positions, at every step the earliest one that is ready.

Main statement: `orderClasses_places_earliest_ready`.
-/

namespace EntityForge

/-! ## Positions that can be placed -/

/-- The positions of a list of classes that can be placed at some time: those whose superclass is borne by no class of
the list, and those whose superclass is the name of a class at a position that can be placed. -/
inductive Placeable (classes : List ClassModel) : ℕ → Prop
  | free {i : ℕ} {c : ClassModel} (hi : classes[i]? = some c)
      (hfree : ∀ name, c.superclass = some name → ∀ d ∈ classes, d.name ≠ name) :
      Placeable classes i
  | after {i j : ℕ} {c p : ClassModel} (hi : classes[i]? = some c) (hj : classes[j]? = some p)
      (hname : c.superclass = some p.name) (hp : Placeable classes j) : Placeable classes i

/-- Whether position `i` may be placed after the positions in `done`: the name of its superclass is borne by a class
that is placed already, unless no class of the list bears it. -/
def Ready (classes : List ClassModel) (done : List ℕ) (i : ℕ) : Prop :=
  ∃ c, classes[i]? = some c ∧ ∀ name, c.superclass = some name → (∃ d ∈ classes, d.name = name) →
    ∃ j ∈ done, ∃ p, classes[j]? = some p ∧ p.name = name

/-- Position `i` is the earliest of those that are not in `done` and may be placed after it. -/
def Earliest (classes : List ClassModel) (done : List ℕ) (i : ℕ) : Prop :=
  i ∉ done ∧ Ready classes done i ∧ ∀ j < i, j ∉ done → ¬ Ready classes done j

/-- Each of the positions, when its turn comes, stands in the relation `P` to the positions before it, which are those
of `done` and then those of the list itself. -/
def Stepwise (P : List ℕ → ℕ → Prop) : List ℕ → List ℕ → Prop
  | _, [] => True
  | done, i :: rest => P done i ∧ Stepwise P (done ++ [i]) rest

theorem Stepwise.imp {P Q : List ℕ → ℕ → Prop} (hPQ : ∀ done i, P done i → Q done i)
    {done order : List ℕ} (h : Stepwise P done order) : Stepwise Q done order := by
  induction order generalizing done with
  | nil => trivial
  | cons i rest ih => exact ⟨hPQ _ _ h.1, ih h.2⟩

/-- A position that is ready after placeable positions is placeable. -/
theorem Placeable.of_ready {classes : List ClassModel} {done : List ℕ} {i : ℕ}
    (hi : Ready classes done i) (hdone : ∀ j ∈ done, Placeable classes j) : Placeable classes i := by
  obtain ⟨c, hc, hready⟩ := hi
  by_cases hborne : ∃ name, c.superclass = some name ∧ ∃ d ∈ classes, d.name = name
  · obtain ⟨name, hname, hd⟩ := hborne
    obtain ⟨j, hj, p, hp, hpname⟩ := hready name hname hd
    exact .after hc hp (hpname ▸ hname) (hdone j hj)
  · refine .free hc fun name hname d hd hdname => hborne ⟨name, hname, d, hd, hdname⟩

/-- Positions that are placed when they are ready are placeable. -/
theorem Placeable.of_stepwise {classes : List ClassModel} {done order : List ℕ}
    (h : Stepwise (Ready classes) done order) (hdone : ∀ j ∈ done, Placeable classes j) :
    ∀ i ∈ order, Placeable classes i := by
  induction order generalizing done with
  | nil => simp
  | cons i rest ih =>
    have hi : Placeable classes i := .of_ready h.1 hdone
    have hrest := ih h.2 (by
      intro j hj
      rcases List.mem_append.mp hj with hj | hj
      · exact hdone j hj
      · rwa [List.mem_singleton.mp hj])
    intro j hj
    rcases List.mem_cons.mp hj with rfl | hj
    · exact hi
    · exact hrest j hj

/-- When no position outside `done` is ready after `done`, all placeable positions are in `done`. -/
theorem Placeable.mem_of_blocked {classes : List ClassModel} {done : List ℕ} {i : ℕ}
    (hblocked : ∀ j < classes.length, j ∉ done → ¬ Ready classes done j)
    (h : Placeable classes i) : i ∈ done := by
  induction h with
  | @free i c hi hfree =>
    by_contra hmem
    refine hblocked i (List.getElem?_eq_some_iff.mp hi).1 hmem ⟨c, hi, ?_⟩
    rintro name hname ⟨d, hd, hdname⟩
    exact absurd hdname (hfree name hname d hd)
  | @after i j c p hi hj hname _ ih =>
    -- The superclass is in `done`, so `i` would be ready.
    by_contra hmem
    refine hblocked i (List.getElem?_eq_some_iff.mp hi).1 hmem ⟨c, hi, ?_⟩
    intro name hother _
    rw [hname, Option.some.injEq] at hother
    exact ⟨j, ih, p, hj, hother⟩

/-- Any order of the same positions that places only what is ready is the order that always takes the earliest, or comes
lexicographically after it. -/
theorem Stepwise.eq_or_lex_of_earliest {classes : List ClassModel} {done order other : List ℕ}
    (h : Stepwise (Earliest classes) done order) (hother : Stepwise (Ready classes) done other)
    (hperm : other.Perm order) (hnodup : (done ++ other).Nodup) :
    order = other ∨ List.Lex (· < ·) order other := by
  induction order generalizing done other with
  | nil => exact Or.inl (List.perm_nil.mp hperm).symm
  | cons i rest ih =>
    obtain ⟨⟨hi, hready, hearliest⟩, hrest⟩ := h
    cases other with
    | nil => exact absurd hperm.length_eq (by simp)
    | cons j others =>
      obtain ⟨hj, hothers⟩ := hother
      have hjdone : j ∉ done := by
        intro hmem
        exact (List.nodup_append.mp hnodup).2.2 j hmem j List.mem_cons_self rfl
      -- Where the two orders part, `j` is ready as well, so it cannot stand before the earliest.
      rcases Nat.lt_trichotomy i j with hlt | rfl | hgt
      · exact Or.inr (.rel hlt)
      · rcases ih hrest hothers hperm.cons_inv (by simpa using hnodup) with rfl | hlex
        · exact Or.inl rfl
        · exact Or.inr (.cons hlex)
      · exact absurd hj (hearliest j hgt hjdone)

/-! ## Candidates by their positions -/

/-- The class at a position of a list; beyond its end, a class with nothing in it. -/
def classAt (classes : List ClassModel) (i : ℕ) : ClassModel :=
  classes[i]?.getD (.empty "" .bean)

theorem getElem?_eq_classAt {classes : List ClassModel} {i : ℕ} (h : i < classes.length) :
    classes[i]? = some (classAt classes i) := by
  rw [classAt, List.getElem?_eq_getElem h, Option.getD_some]

theorem map_classAt_range (classes : List ClassModel) :
    (List.range classes.length).map (classAt classes) = classes := by
  refine List.ext_getElem (by simp) fun i hi hi' => ?_
  have h := getElem?_eq_classAt hi'
  rw [List.getElem?_eq_getElem hi', Option.some.injEq] at h
  simp [h]

namespace Candidate

/-- The candidate of a class whose superclass is known: it waits for the name of the superclass if a class of the list
bears it. -/
def waiting (classes : List ClassModel) (c : ClassModel) : Candidate :=
  { subject := c, parent := c.superclass.filter fun name => classes.any (·.name == name) }

theorem ofClass_eq_ok {model : Metamodel} {classes : List ClassModel} {c : ClassModel}
    (h : ∀ name, c.superclass = some name → (model.class? name).isSome) :
    ofClass model classes c = .ok (waiting classes c) := by
  unfold ofClass Metamodel.superclassOf waiting
  cases hname : c.superclass with
  | none => rfl
  | some name =>
    obtain ⟨p, hp⟩ := Option.isSome_iff_exists.mp (h name hname)
    have hpname : p.name = name := by simpa using List.find?_some hp
    simp only [hp]
    show Except.ok _ = _
    by_cases hany : classes.any (·.name == name) = true
    · simp [Option.filter, hany, hpname]
    · simp [Option.filter, hany, hpname]

/-- The candidate at a position may be placed exactly when the position is ready. -/
theorem isReady_iff {classes : List ClassModel} {done : List ℕ} {i : ℕ}
    (hdone : ∀ j ∈ done, j < classes.length) (hi : i < classes.length) :
    isReady (done.map (classAt classes)) (waiting classes (classAt classes i)) = true
      ↔ Ready classes done i := by
  have hplaced : ∀ name, (done.map (classAt classes)).any (·.name == name) = true
      ↔ ∃ j ∈ done, ∃ p, classes[j]? = some p ∧ p.name = name := by
    intro name
    rw [List.any_eq_true]
    constructor
    · rintro ⟨p, hp, hpname⟩
      obtain ⟨j, hj, rfl⟩ := List.mem_map.mp hp
      exact ⟨j, hj, _, getElem?_eq_classAt (hdone j hj), by simpa using hpname⟩
    · rintro ⟨j, hj, p, hp, hpname⟩
      rw [getElem?_eq_classAt (hdone j hj), Option.some.injEq] at hp
      exact ⟨p, hp ▸ List.mem_map_of_mem hj, by simpa using hpname⟩
  rw [Ready, getElem?_eq_classAt hi]
  simp only [Option.some.injEq, exists_eq_left']
  unfold isReady waiting
  cases hname : (classAt classes i).superclass with
  | none => simp
  | some name =>
    by_cases hany : ∃ d ∈ classes, d.name = name
    · have hany' : classes.any (·.name == name) = true := by simpa using hany
      simp only [Option.filter, hany', if_true, hplaced, Option.some.injEq]
      constructor
      · rintro h _ rfl _
        exact h
      · exact fun h => h name rfl hany
    · have hany' : classes.any (·.name == name) = false := by simpa using hany
      simp only [Option.filter, hany', Bool.false_eq_true, if_false, Option.some.injEq, true_iff]
      rintro _ rfl h
      exact absurd h hany

end Candidate

/-- Taking from the images of a list is taking from the list. -/
theorem takeFirst?_map {α β : Type} (f : α → β) (p : β → Bool) (as : List α) :
    takeFirst? p (as.map f)
      = (takeFirst? (fun a => p (f a)) as).map fun (a, left) => (f a, left.map f) := by
  induction as with
  | nil => rfl
  | cons a rest ih =>
    by_cases ha : p (f a) = true
    · simp [takeFirst?, ha]
    · simp only [List.map_cons, takeFirst?, ha, Bool.false_eq_true, if_false, ih, Option.map_map]
      rfl

/-! ## Arranging positions -/

/-- The positions that are left when those of `done` are placed, in ascending order. -/
structure Remaining (classes : List ClassModel) (done left : List ℕ) : Prop where
  done_lt : ∀ j ∈ done, j < classes.length
  sorted : left.Pairwise (· < ·)
  mem_iff : ∀ j, j ∈ left ↔ j < classes.length ∧ j ∉ done

namespace Remaining

variable {classes : List ClassModel} {done before after : List ℕ} {i : ℕ}

theorem range (classes : List ClassModel) : Remaining classes [] (List.range classes.length) :=
  ⟨by simp, List.pairwise_lt_range, by simp⟩

theorem lt_and_not_mem (h : Remaining classes done (before ++ i :: after)) : i < classes.length ∧ i ∉ done :=
  (h.mem_iff i).mp (by simp)

/-- A ready position is the earliest one if nothing that is left before it is ready. -/
theorem earliest (h : Remaining classes done (before ++ i :: after)) (hready : Ready classes done i)
    (hbefore : ∀ j ∈ before, ¬ Ready classes done j) : Earliest classes done i := by
  obtain ⟨hi, hnew⟩ := h.lt_and_not_mem
  refine ⟨hnew, hready, fun j hji hj => ?_⟩
  have hjleft : j ∈ before ++ i :: after := (h.mem_iff j).mpr ⟨Nat.lt_trans hji hi, hj⟩
  -- What stands from `i` on is not below `i`.
  have hfrom : j ∉ i :: after := by
    have hsorted := (List.pairwise_append.mp h.sorted).2.1
    intro hmem
    rcases List.mem_cons.mp hmem with rfl | hmem
    · exact Nat.lt_irrefl j hji
    · exact Nat.lt_asymm hji ((List.pairwise_cons.mp hsorted).1 j hmem)
  exact hbefore j ((List.mem_append.mp hjleft).resolve_right hfrom)

/-- Without the position that is placed next, what is left is still all that is left, in ascending order. -/
theorem place (h : Remaining classes done (before ++ i :: after)) :
    Remaining classes (done ++ [i]) (before ++ after) := by
  have hi' : i ∉ before ++ after := by
    have hnodup : (before ++ i :: after).Nodup := h.sorted.imp fun hlt => Nat.ne_of_lt hlt
    exact (List.nodup_middle.mp hnodup).notMem
  refine ⟨fun j hj => ?_, h.sorted.sublist (by simp), fun j => ?_⟩
  · rcases List.mem_append.mp hj with hj | hj
    · exact h.done_lt j hj
    · rw [List.mem_singleton.mp hj]
      exact h.lt_and_not_mem.1
  · by_cases hji : j = i
    · subst hji
      simpa using hi'
    · have := h.mem_iff j
      simp only [List.mem_append, List.mem_cons, hji, false_or] at this
      simp only [List.mem_append, this, List.mem_singleton, hji, or_false]

end Remaining

/-- What arranging the positions of `left` after those of `done` comes to: `order` are the positions in the order of
placing, and `stuck` those that are left when none is ready. -/
structure Arranged (classes : List ClassModel) (done left order stuck : List ℕ) : Prop where
  perm : (order ++ stuck).Perm left
  kept : stuck.Sublist left
  steps : Stepwise (Earliest classes) done order
  blocked : ∀ i ∈ stuck, ¬ Ready classes (done ++ order) i

/-- When nothing that is left is ready, all of it is stuck. -/
theorem Arranged.of_blocked {classes : List ClassModel} {done left : List ℕ}
    (h : ∀ i ∈ left, ¬ Ready classes done i) : Arranged classes done left [] left :=
  ⟨.refl _, .refl _, trivial, by simpa using h⟩

/-- The earliest position is placed before the others are arranged. -/
theorem Arranged.cons {classes : List ClassModel} {done before after order stuck : List ℕ} {i : ℕ}
    (hi : Earliest classes done i) (h : Arranged classes (done ++ [i]) (before ++ after) order stuck) :
    Arranged classes done (before ++ i :: after) (i :: order) stuck where
  perm := (h.perm.cons i).trans List.perm_middle.symm
  kept := h.kept.trans (by simp)
  steps := ⟨hi, h.steps⟩
  blocked := by simpa using h.blocked

namespace Candidate

theorem arrange_of_none {placed : List ClassModel} {candidates : List Candidate}
    (h : takeFirst? (isReady placed) candidates = none) :
    arrange placed candidates = (placed, candidates) := by
  rw [arrange]
  split
  · rfl
  · next hsome =>
    rw [h] at hsome
    exact absurd hsome (by simp)

theorem arrange_of_some {placed : List ClassModel} {candidates left : List Candidate}
    {next : Candidate} (h : takeFirst? (isReady placed) candidates = some (next, left)) :
    arrange placed candidates = arrange (placed ++ [next.subject]) left := by
  rw [arrange]
  split
  · next hnone =>
    rw [h] at hnone
    exact absurd hnone (by simp)
  · next found rest hsome =>
    rw [h, Option.some.injEq, Prod.mk.injEq] at hsome
    rw [hsome.1, hsome.2]

/-- Which position is taken next, and what is left without it. -/
theorem takeFirst?_positions (classes : List ClassModel) {done left : List ℕ} (h : Remaining classes done left) :
    (takeFirst? (isReady (done.map (classAt classes))) (left.map fun i => waiting classes (classAt classes i)) = none
        ∧ ∀ i ∈ left, ¬ Ready classes done i)
      ∨ ∃ before i after, left = before ++ i :: after ∧ Earliest classes done i
        ∧ takeFirst? (isReady (done.map (classAt classes))) (left.map fun i => waiting classes (classAt classes i))
          = some (waiting classes (classAt classes i),
              (before ++ after).map fun i => waiting classes (classAt classes i)) := by
  have hready : ∀ j ∈ left, isReady (done.map (classAt classes)) (waiting classes (classAt classes j)) = true
      ↔ Ready classes done j := fun j hj => isReady_iff h.done_lt ((h.mem_iff j).mp hj).1
  rw [takeFirst?_map]
  cases htake : takeFirst?
      (fun i => isReady (done.map (classAt classes)) (waiting classes (classAt classes i))) left with
  | none =>
    refine .inl ⟨rfl, fun i hi => ?_⟩
    rw [← hready i hi, takeFirst?_eq_none_iff.mp htake i hi]
    exact Bool.false_ne_true
  | some taken =>
    obtain ⟨i, rest⟩ := taken
    obtain ⟨before, after, rfl, rfl, hi, hbefore⟩ := takeFirst?_eq_some htake
    refine .inr ⟨before, i, after, rfl, h.earliest ((hready i (by simp)).mp hi) fun j hj => ?_, rfl⟩
    rw [← hready j (List.mem_append_left _ hj), hbefore j hj]
    exact Bool.false_ne_true

/-- Arranging the candidates at positions arranges the positions. Each step takes one out of what is left. -/
theorem arrange_positions (classes : List ClassModel) (done left : List ℕ) (h : Remaining classes done left) :
    ∃ order stuck, Arranged classes done left order stuck ∧
      arrange (done.map (classAt classes)) (left.map fun i => waiting classes (classAt classes i))
        = ((done ++ order).map (classAt classes),
            stuck.map fun i => waiting classes (classAt classes i)) := by
  induction hn : left.length using Nat.strongRecOn generalizing done left with
  | _ n ih =>
    rcases takeFirst?_positions classes h with ⟨hnone, hblocked⟩ | ⟨before, i, after, rfl, hearliest, hsome⟩
    · refine ⟨[], left, .of_blocked hblocked, ?_⟩
      rw [List.append_nil]
      exact arrange_of_none hnone
    · have hfewer : (before ++ after).length < n := by
        simp only [List.length_append, List.length_cons] at hn ⊢
        omega
      obtain ⟨order, stuck, harr, heq⟩ := ih _ hfewer (done ++ [i]) (before ++ after) h.place rfl
      refine ⟨i :: order, stuck, harr.cons hearliest, ?_⟩
      rw [arrange_of_some hsome]
      simpa [waiting] using heq

end Candidate

namespace Arranged

variable {classes : List ClassModel} {order stuck : List ℕ}

/-- Once all positions are arranged, the placed ones are the placeable ones. -/
theorem mem_order_iff (h : Arranged classes [] (List.range classes.length) order stuck) {i : ℕ} :
    i ∈ order ↔ Placeable classes i := by
  constructor
  · exact Placeable.of_stepwise (h.steps.imp fun _ _ hi => hi.2.1) (by simp) i
  · intro hi
    refine hi.mem_of_blocked fun j hj hjorder => ?_
    have hmem : j ∈ order ++ stuck := h.perm.mem_iff.mpr (List.mem_range.mpr hj)
    exact h.blocked j ((List.mem_append.mp hmem).resolve_left hjorder)

/-- Once all positions are arranged, the positions left over are those that are not placeable. -/
theorem mem_stuck_iff (h : Arranged classes [] (List.range classes.length) order stuck) {i : ℕ} :
    i ∈ stuck ↔ i < classes.length ∧ ¬ Placeable classes i := by
  have hnodup : (order ++ stuck).Nodup := h.perm.nodup_iff.mpr List.nodup_range
  rw [← h.mem_order_iff]
  constructor
  · intro hi
    refine ⟨List.mem_range.mp (h.kept.subset hi), fun horder => ?_⟩
    exact (List.nodup_append.mp hnodup).2.2 i horder i hi rfl
  · rintro ⟨hi, horder⟩
    have hmem : i ∈ order ++ stuck := h.perm.mem_iff.mpr (List.mem_range.mpr hi)
    exact (List.mem_append.mp hmem).resolve_left horder

/-- Nothing is left over exactly when all positions are placeable. -/
theorem stuck_eq_nil_iff (h : Arranged classes [] (List.range classes.length) order stuck) :
    stuck = [] ↔ ∀ i < classes.length, Placeable classes i := by
  rw [List.eq_nil_iff_forall_not_mem]
  refine forall_congr' fun i => ?_
  rw [h.mem_stuck_iff]
  tauto

end Arranged

/-! ## Ordering a stage -/

/-- Ordering classes whose superclasses are all known arranges their positions, and fails if some are left over. -/
theorem orderClasses_arranged (model : Metamodel) (stage : Stage) (classes : List ClassModel)
    (hknown : ∀ c ∈ classes, ∀ name, c.superclass = some name → (model.class? name).isSome) :
    ∃ order stuck, Arranged classes [] (List.range classes.length) order stuck ∧
      orderClasses model stage classes
        = if stuck = [] then .ok (order.map (classAt classes))
          else .error (.cyclicHierarchy stage (stuck.map fun i => (classAt classes i).name)) := by
  obtain ⟨order, stuck, harr, heq⟩ := Candidate.arrange_positions classes [] _ (.range classes)
  refine ⟨order, stuck, harr, ?_⟩
  have hcandidates : classes.mapM (Candidate.ofClass model classes)
      = .ok ((List.range classes.length).map fun i =>
          Candidate.waiting classes (classAt classes i)) := by
    rw [mapM_eq_ok (g := Candidate.waiting classes)
      fun c hc => Candidate.ofClass_eq_ok (hknown c hc)]
    conv_lhs => rw [← map_classAt_range classes, List.map_map]
    rw [map_classAt_range]
    rfl
  rw [List.map_nil, List.nil_append] at heq
  rw [orderClasses, hcandidates]
  cases stuck with
  | nil =>
    simp only [Except.mapError, bind, Except.bind, heq]
    simp
  | cons i rest =>
    simp only [Except.mapError, bind, Except.bind, heq]
    simp [Candidate.waiting]

/-- `ordered` are the classes in the order that their positions have in `order`: each class comes after one that bears
the name of its superclass, if there is any, and at each step the earliest such class is taken. -/
structure EarliestOrder (classes ordered : List ClassModel) (order : List ℕ) : Prop where
  positions : order.Perm (List.range classes.length)
  classes_eq : ordered.map some = order.map (classes[·]?)
  perm : ordered.Perm classes
  ready : Stepwise (Ready classes) [] order
  earliest : Stepwise (Earliest classes) [] order
  /-- No other order that keeps superclasses first comes lexicographically before this one. -/
  least : ∀ other : List ℕ, other.Perm (List.range classes.length) →
    Stepwise (Ready classes) [] other → order = other ∨ List.Lex (· < ·) order other

/-- `names` are the names of the classes at the positions that cannot be placed, in the order of the list. -/
def UnplaceableNames (classes : List ClassModel) (names : List String) : Prop :=
  ∃ stuck : List ℕ, stuck.Pairwise (· < ·)
    ∧ (∀ i, i ∈ stuck ↔ i < classes.length ∧ ¬ Placeable classes i)
    ∧ names.map some = stuck.map fun i => (classes[i]?).map (·.name)

/-- Arranged positions of which none is left over are in the order that always takes the earliest. -/
theorem Arranged.earliestOrder {classes : List ClassModel} {order : List ℕ}
    (h : Arranged classes [] (List.range classes.length) order []) :
    EarliestOrder classes (order.map (classAt classes)) order := by
  have hperm : order.Perm (List.range classes.length) := by simpa using h.perm
  have hbound : ∀ i ∈ order, i < classes.length := fun i hi =>
    List.mem_range.mp (hperm.mem_iff.mp hi)
  refine ⟨hperm, ?_, ?_, h.steps.imp fun _ _ hi => hi.2.1, h.steps, ?_⟩
  · rw [List.map_map]
    exact List.map_congr_left fun i hi => (getElem?_eq_classAt (hbound i hi)).symm
  · have hmap := hperm.map (classAt classes)
    rwa [map_classAt_range] at hmap
  · intro other hother hready
    refine h.steps.eq_or_lex_of_earliest hready (hother.trans hperm.symm) ?_
    rw [List.nil_append]
    exact hother.nodup_iff.mpr List.nodup_range

/-- When all positions are placeable, the classes can be ordered. -/
theorem orderClasses_of_placeable {model : Metamodel} {stage : Stage} {classes : List ClassModel}
    (hknown : ∀ c ∈ classes, ∀ name, c.superclass = some name → (model.class? name).isSome)
    (hplaceable : ∀ i < classes.length, Placeable classes i) :
    ∃ ordered order, orderClasses model stage classes = .ok ordered
      ∧ EarliestOrder classes ordered order := by
  obtain ⟨order, stuck, harr, heq⟩ := orderClasses_arranged model stage classes hknown
  have hstuck := harr.stuck_eq_nil_iff.mpr hplaceable
  subst hstuck
  rw [if_pos rfl] at heq
  exact ⟨_, order, heq, harr.earliestOrder⟩

/-- Classes can only be ordered when their superclasses are known. -/
theorem known_of_orderClasses_eq_ok {model : Metamodel} {stage : Stage}
    {classes ordered : List ClassModel} (h : orderClasses model stage classes = .ok ordered) :
    ∀ c ∈ classes, ∀ name, c.superclass = some name → (model.class? name).isSome := by
  obtain ⟨candidates, hcandidates, -⟩ := bind_eq_ok_iff.mp h
  intro c hc name hname
  obtain ⟨_, -, hcandidate⟩ := exists_mem_right_of_forall₂
    (forall₂_of_mapM_eq_ok (mapError_eq_ok_iff.mp hcandidates)) hc
  obtain ⟨parent, hparent, -⟩ := bind_eq_ok_iff.mp hcandidate
  rw [Metamodel.superclassOf, hname] at hparent
  cases hclass : model.class? name with
  | some p => rfl
  | none =>
    simp only [hclass] at hparent
    exact absurd hparent (by simp)

/-- Ordered classes are the classes of the list in another order. -/
theorem orderClasses_perm {model : Metamodel} {stage : Stage} {classes ordered : List ClassModel}
    (h : orderClasses model stage classes = .ok ordered) : ordered.Perm classes := by
  obtain ⟨order, stuck, harr, heq⟩ :=
    orderClasses_arranged model stage classes (known_of_orderClasses_eq_ok h)
  rw [h] at heq
  split at heq
  · next hstuck =>
    subst hstuck
    rw [Except.ok.inj heq]
    exact harr.earliestOrder.perm
  · exact absurd heq (by simp)

/-- The positions left over name the classes that cannot be placed. -/
theorem Arranged.unplaceableNames {classes : List ClassModel} {order stuck : List ℕ}
    (h : Arranged classes [] (List.range classes.length) order stuck) :
    UnplaceableNames classes (stuck.map fun i => (classAt classes i).name) := by
  refine ⟨stuck, List.pairwise_lt_range.sublist h.kept, fun i => h.mem_stuck_iff, ?_⟩
  rw [List.map_map]
  refine List.map_congr_left fun i hi => ?_
  rw [getElem?_eq_classAt (h.mem_stuck_iff.mp hi).1]
  rfl

/-- **Ordering a stage.** For classes whose superclasses are all known: when all positions are placeable, the
classes are put in the order that always takes the earliest that is ready; otherwise ordering fails and names
exactly the classes that cannot be placed. -/
theorem orderClasses_places_earliest_ready (model : Metamodel) (stage : Stage)
    (classes : List ClassModel)
    (hknown : ∀ c ∈ classes, ∀ name, c.superclass = some name → (model.class? name).isSome) :
    ((∀ i < classes.length, Placeable classes i) →
      ∃ ordered order, orderClasses model stage classes = .ok ordered
        ∧ EarliestOrder classes ordered order)
    ∧ ((∃ i < classes.length, ¬ Placeable classes i) →
      ∃ names, orderClasses model stage classes = .error (.cyclicHierarchy stage names)
        ∧ UnplaceableNames classes names
        ∧ (GenerationError.cyclicHierarchy stage names).message
          = "Cyclic class hierarchy in " ++ Spelled.spelling stage ++ " stage involving: "
            ++ ", ".intercalate names) := by
  refine ⟨orderClasses_of_placeable hknown, ?_⟩
  rintro ⟨i, hi, hplaceable⟩
  obtain ⟨order, stuck, harr, heq⟩ := orderClasses_arranged model stage classes hknown
  have hstuck : stuck ≠ [] := fun hnil =>
    hplaceable (harr.stuck_eq_nil_iff.mp hnil i hi)
  rw [if_neg hstuck] at heq
  exact ⟨_, heq, harr.unplaceableNames, rfl⟩

/-- A metamodel that declares a class before its superclass. -/
def childBeforeParent : Metamodel :=
  { Metamodel.empty "shop" with
    classes :=
      [{ ClassModel.empty "Child" .entity with superclass := some "Parent" },
        .empty "Other" .entity, .empty "Parent" .entity] }

/-- Classes that are declared before their superclass are put in order. -/
theorem orderClasses_childBeforeParent :
    (∀ c ∈ childBeforeParent.classes, ∀ name, c.superclass = some name →
      (childBeforeParent.class? name).isSome)
    ∧ ∃ ordered order, orderClasses childBeforeParent .entities childBeforeParent.classes = .ok ordered
        ∧ EarliestOrder childBeforeParent.classes ordered order := by
  have hknown : ∀ c ∈ childBeforeParent.classes, ∀ name, c.superclass = some name →
      (childBeforeParent.class? name).isSome := by decide
  refine ⟨hknown, (orderClasses_places_earliest_ready _ _ _ hknown).1 fun i hi => ?_⟩
  have hparent : Placeable childBeforeParent.classes 2 := .free rfl (by simp [ClassModel.empty])
  match i, hi with
  | 0, _ => exact .after rfl rfl rfl hparent
  | 1, _ => exact .free rfl (by simp [ClassModel.empty])
  | 2, _ => exact hparent

end EntityForge
