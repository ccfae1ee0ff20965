import EntityForge.JavaClass.Basic

/-!
# The catalogue of generated classes

A catalogue keeps generated classes in groups of one kind each. The groups stand in the order of their kinds, and within
a group the classes stand in the order of their registration.
-/

namespace EntityForge

/-- The place of a kind among all kinds. -/
def ClassKind.rank (kind : ClassKind) : Nat :=
  (Spelled.values : List ClassKind).idxOf kind

/-- The groups with one more class, at the end of the group of its kind. -/
def insertInGroup : List (ClassKind × List JavaClass) → JavaClass → List (ClassKind × List JavaClass)
  | [], c => [(c.kind, [c])]
  | (kind, group) :: rest, c =>
    if c.kind.rank < kind.rank then (c.kind, [c]) :: (kind, group) :: rest
    else if c.kind = kind then (kind, group ++ [c]) :: rest
    else (kind, group) :: insertInGroup rest c

/-- The generated classes of a run. -/
structure Catalogue where
  /-- The classes kind by kind. There are no empty groups. -/
  groups : List (ClassKind × List JavaClass)
  /-- The classes in the order of their registration, from which the groups have come. -/
  registered : List JavaClass
  groups_eq_foldl : groups = registered.foldl insertInGroup []
  deriving DecidableEq

namespace Catalogue

/-- The catalogue without classes. -/
def empty : Catalogue :=
  { groups := [], registered := [], groups_eq_foldl := rfl }

/-- The catalogue with one more class. -/
def register (catalogue : Catalogue) (c : JavaClass) : Catalogue where
  groups := insertInGroup catalogue.groups c
  registered := catalogue.registered ++ [c]
  groups_eq_foldl := by
    rw [List.foldl_append, ← catalogue.groups_eq_foldl]
    rfl

/-- The catalogue without any of its classes. -/
def clear (_ : Catalogue) : Catalogue :=
  empty

/-- The classes of a kind, in the order of their registration. -/
def ofKind (catalogue : Catalogue) (kind : ClassKind) : List JavaClass :=
  (catalogue.groups.lookup kind).getD []

/-- All classes, kind by kind. -/
def toList (catalogue : Catalogue) : List JavaClass :=
  catalogue.groups.flatMap (·.2)

/-- The first class of a full name, in the order of the list. -/
def find? (catalogue : Catalogue) (name : String) : Option JavaClass :=
  catalogue.toList.find? (·.qualifiedName == name)

/-- The number of classes. -/
def size (catalogue : Catalogue) : Nat :=
  catalogue.groups.foldl (fun n group => n + group.2.length) 0

/-- Whether there is no class. -/
def isEmpty (catalogue : Catalogue) : Bool :=
  catalogue.size == 0

/-! ## The groups -/

section Groups

variable {classes : List JavaClass} {c : JavaClass} {kind : ClassKind} {kinds : List ClassKind}

/-- The classes of some kinds, in groups of which none is empty. -/
def groupsOf (classes : List JavaClass) (kinds : List ClassKind) : List (ClassKind × List JavaClass) :=
  (kinds.map fun kind => (kind, classes.filter (·.kind == kind))).filter (!·.2.isEmpty)

theorem groupsOf_cons :
    groupsOf classes (kind :: kinds)
      = if classes.filter (·.kind == kind) = [] then groupsOf classes kinds
        else (kind, classes.filter (·.kind == kind)) :: groupsOf classes kinds := by
  rw [groupsOf, List.map_cons, List.filter_cons]
  cases classes.filter (·.kind == kind) <;> rfl

theorem mem_of_mem_groupsOf {entry : ClassKind × List JavaClass} (h : entry ∈ groupsOf classes kinds) :
    entry.1 ∈ kinds := by
  obtain ⟨kind, hkind, rfl⟩ := List.mem_map.mp (List.mem_filter.mp h).1
  exact hkind

theorem filter_kind_concat (classes : List JavaClass) (c : JavaClass) (kind : ClassKind) :
    (classes ++ [c]).filter (·.kind == kind)
      = classes.filter (·.kind == kind) ++ (if c.kind = kind then [c] else []) := by
  by_cases h : c.kind = kind <;> simp [h]

/-- A class of another kind does not show among some kinds. -/
theorem groupsOf_concat_of_notMem (h : c.kind ∉ kinds) :
    groupsOf (classes ++ [c]) kinds = groupsOf classes kinds := by
  unfold groupsOf
  congr 1
  refine List.map_congr_left fun kind hkind => ?_
  have hne : c.kind ≠ kind := by
    rintro rfl
    exact h hkind
  rw [filter_kind_concat, if_neg hne, List.append_nil]

/-- A class whose kind comes before some kinds starts a group before theirs. -/
theorem insertInGroup_groupsOf_of_lt (h : ∀ kind ∈ kinds, c.kind.rank < kind.rank) :
    insertInGroup (groupsOf classes kinds) c = (c.kind, [c]) :: groupsOf classes kinds := by
  cases hgroups : groupsOf classes kinds with
  | nil => rfl
  | cons entry rest =>
    obtain ⟨kind, group⟩ := entry
    have hentry : (kind, group) ∈ groupsOf classes kinds := hgroups ▸ List.mem_cons_self
    rw [insertInGroup, if_pos (h kind (mem_of_mem_groupsOf hentry))]

/-- Among kinds in their order, one more class is inserted into the group of its kind. -/
theorem groupsOf_concat (hsorted : kinds.Pairwise fun k l => k.rank < l.rank) (hmem : c.kind ∈ kinds) :
    groupsOf (classes ++ [c]) kinds = insertInGroup (groupsOf classes kinds) c := by
  induction kinds with
  | nil => exact absurd hmem List.not_mem_nil
  | cons kind rest ih =>
    obtain ⟨hlt, hrest⟩ := List.pairwise_cons.mp hsorted
    rw [groupsOf_cons, groupsOf_cons, filter_kind_concat]
    by_cases hkind : c.kind = kind
    · -- The kinds behind that of the class are greater, so the class is in none of their groups.
      subst hkind
      have hnot : c.kind ∉ rest := fun h => absurd (hlt c.kind h) (Nat.lt_irrefl _)
      rw [if_pos rfl, groupsOf_concat_of_notMem hnot]
      split
      · simp_all
      · split
        · next hempty => rw [hempty, insertInGroup_groupsOf_of_lt hlt, List.nil_append]
        · rw [insertInGroup, if_neg (Nat.lt_irrefl _), if_pos rfl]
    · have hrestmem : c.kind ∈ rest := (List.mem_cons.mp hmem).resolve_left hkind
      have hgt : ¬ c.kind.rank < kind.rank := Nat.lt_asymm (hlt c.kind hrestmem)
      rw [if_neg hkind, List.append_nil, ih hrest hrestmem]
      split
      · rfl
      · rw [insertInGroup, if_neg hgt, if_neg hkind]

/-- The kinds are listed in their order. -/
theorem pairwise_rank_values : (Spelled.values : List ClassKind).Pairwise fun k l => k.rank < l.rank := by
  decide

/-- What stands under a kind among the groups of some kinds. -/
theorem getD_lookup_groupsOf :
    ((groupsOf classes kinds).lookup kind).getD []
      = if kind ∈ kinds then classes.filter (·.kind == kind) else [] := by
  induction kinds with
  | nil => rfl
  | cons other rest ih =>
    rw [groupsOf_cons]
    by_cases hkind : kind = other
    · subst hkind
      rw [if_pos List.mem_cons_self]
      split
      · next hempty => rw [ih, hempty, ite_self]
      · rw [List.lookup_cons_self, Option.getD_some]
    · have hbeq : (kind == other) = false := beq_false_of_ne hkind
      simp only [List.mem_cons, hkind, false_or]
      split
      · exact ih
      · rw [List.lookup_cons, hbeq]
        exact ih

theorem flatMap_groupsOf :
    (groupsOf classes kinds).flatMap (·.2) = kinds.flatMap fun kind => classes.filter (·.kind == kind) := by
  induction kinds with
  | nil => rfl
  | cons kind rest ih =>
    rw [groupsOf_cons, List.flatMap_cons, ← ih]
    split
    · next hempty => rw [hempty, List.nil_append]
    · rw [List.flatMap_cons]

end Groups

/-- The groups are what is registered of each kind, where that is anything. -/
theorem groups_eq_groupsOf (catalogue : Catalogue) :
    catalogue.groups = groupsOf catalogue.registered Spelled.values := by
  obtain ⟨groups, registered, rfl⟩ := catalogue
  suffices h : ∀ before after, after.foldl insertInGroup (groupsOf before Spelled.values)
      = groupsOf (before ++ after) Spelled.values from h [] registered
  intro before after
  induction after generalizing before with
  | nil => rw [List.append_nil, List.foldl_nil]
  | cons c after ih =>
    rw [List.foldl_cons, ← groupsOf_concat pairwise_rank_values (Spelled.mem_values c.kind), ih, List.append_assoc,
      List.singleton_append]

/-- Of a kind there is what was registered of it, in the order of registration. -/
theorem ofKind_eq_filter (catalogue : Catalogue) (kind : ClassKind) :
    catalogue.ofKind kind = catalogue.registered.filter (·.kind == kind) := by
  rw [ofKind, groups_eq_groupsOf, getD_lookup_groupsOf, if_pos (Spelled.mem_values kind)]

/-- The list runs through the kinds. -/
theorem toList_eq_flatMap_ofKind (catalogue : Catalogue) :
    catalogue.toList = (Spelled.values : List ClassKind).flatMap catalogue.ofKind := by
  simp only [toList, groups_eq_groupsOf, flatMap_groupsOf, ← ofKind_eq_filter]

/-- The list holds exactly the registered classes. -/
theorem mem_toList {catalogue : Catalogue} {c : JavaClass} : c ∈ catalogue.toList ↔ c ∈ catalogue.registered := by
  simp [toList_eq_flatMap_ofKind, ofKind_eq_filter, Spelled.mem_values]

end Catalogue

end EntityForge
