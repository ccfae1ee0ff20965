import EntityForge.Proofs.Coherence
import EntityForge.Proofs.Lineage

/-!
# Names that a class can see

A class sees its own attributes and those of all its ancestors. Assembly compares the names of its own attributes with
one another and with those of every ancestor; it does not compare the ancestors with one another. What two ancestors, or
one of them twice, declare under one name is therefore seen twice by a class that is assembled nevertheless.

Main statement: `visible_names_distinct_iff`, that the names are distinct exactly when every ancestor, looked at on its
own, keeps its names apart.
-/

namespace EntityForge

namespace Metamodel

variable {model : Metamodel} {c p : ClassModel} {path : List ClassModel}

/-- The attributes of the class have different names, and no proper ancestor declares any of them. -/
structure NamesApart (model : Metamodel) (c : ClassModel) : Prop where
  distinct : (c.attributes.map (·.name)).Nodup
  fresh : ∀ d, Relation.TransGen model.Extends c d → ∀ a ∈ c.attributes, ¬ d.Declares a.name

/-- Behind the nearest superclass the line goes on as the line of that superclass. -/
theorem Lineage.tail (h : model.Lineage c (p :: path)) : model.Lineage p path := by
  obtain ⟨⟨last, climb, htop⟩, distinct⟩ := h
  cases climb with
  | up _ rest => exact ⟨⟨last, rest, htop⟩, distinct.of_cons⟩

/-- On a line that has an end, the names of a class and those further up are distinct when the class keeps its own apart
and those further up are distinct. -/
theorem Lineage.nodup_cons_iff (h : model.Lineage c path) :
    ((c :: path).flatMap fun d => d.attributes.map (·.name)).Nodup
      ↔ model.NamesApart c ∧ (path.flatMap fun d => d.attributes.map (·.name)).Nodup := by
  have hup : ∀ d, d ∈ path ↔ Relation.TransGen model.Extends c d := fun d =>
    mem_ancestors_iff (ancestors_eq_ok_iff.mpr h)
  rw [List.flatMap_cons, List.nodup_append']
  constructor
  · rintro ⟨hown, hpath, hdisjoint⟩
    refine ⟨⟨hown, fun d hd a ha => ?_⟩, hpath⟩
    rintro ⟨b, hb, hname⟩
    have hseen : a.name ∈ path.flatMap fun d => d.attributes.map (·.name) :=
      List.mem_flatMap.mpr ⟨d, (hup d).mpr hd, List.mem_map.mpr ⟨b, hb, hname⟩⟩
    exact hdisjoint (List.mem_map_of_mem ha) hseen
  · rintro ⟨⟨hown, hfresh⟩, hpath⟩
    refine ⟨hown, hpath, fun name hname hseen => ?_⟩
    obtain ⟨a, ha, rfl⟩ := List.mem_map.mp hname
    obtain ⟨d, hd, hdeclared⟩ := List.mem_flatMap.mp hseen
    exact hfresh d ((hup d).mp hd) a ha (List.mem_map.mp hdeclared)

/-- On a line that has an end, the names above a class are distinct exactly when each class there keeps its names
apart. -/
theorem Lineage.nodup_above_iff (h : model.Lineage c path) :
    (path.flatMap fun d => d.attributes.map (·.name)).Nodup ↔ ∀ d ∈ path, model.NamesApart d := by
  induction path generalizing c with
  | nil => simp
  | cons p rest ih =>
    have hrest := h.tail
    rw [hrest.nodup_cons_iff, ih hrest, List.forall_mem_cons]

end Metamodel

/-- A class that can be drafted keeps its names apart. -/
theorem Draft.Parts.namesApart {w : Workplace} (parts : Draft.Parts w) : w.model.NamesApart w.subject where
  distinct := (nodup_of_attributeFault?_eq_none parts.attributes_eq).1
  fresh d hd a ha := by
    rintro ⟨b, hb, hname⟩
    exact parts.name_ne_of_ancestor ha hd hb hname.symm

section Assembled

variable {σ : Type} [PrimeSource σ] {model : Metamodel} {options : GenerationOptions} {c : ClassModel}
  {primes primes' : σ} {artifact : JavaClass}

/-- **Which names a class can see.** The names that an assembled class sees are distinct exactly when each of its
ancestors keeps its names apart, as the class itself always does: no two of its own are the same, and none is declared
further up. A name that is seen twice is thus declared by ancestors alone. All is well when every ancestor can be
assembled too. -/
theorem visible_names_distinct_iff (h : assemble model options c primes = (.ok artifact, primes')) :
    ∃ path, model.ancestors c = .ok path
      ∧ model.NamesApart c
      ∧ ((Workplace.visibleNames { model, options, subject := c } path).Nodup ↔ ∀ d ∈ path, model.NamesApart d)
      ∧ ((∀ d ∈ path, ∃ (others : GenerationOptions) (artifact : JavaClass) (before after : σ),
          assemble model others d before = (.ok artifact, after)) →
        (Workplace.visibleNames { model, options, subject := c } path).Nodup) := by
  obtain ⟨parts, -⟩ := exists_parts_of_assemble_eq_ok h
  have hline := Metamodel.ancestors_eq_ok_iff.mp parts.ancestors_eq
  have hiff : (Workplace.visibleNames { model, options, subject := c } parts.ancestors).Nodup
      ↔ ∀ d ∈ parts.ancestors, model.NamesApart d := by
    rw [Workplace.visibleNames, hline.nodup_cons_iff, hline.nodup_above_iff]
    exact and_iff_right parts.namesApart
  refine ⟨parts.ancestors, parts.ancestors_eq, parts.namesApart, hiff, fun hall => hiff.mpr fun d hd => ?_⟩
  obtain ⟨_, _, _, _, hassembled⟩ := hall d hd
  obtain ⟨above, -⟩ := exists_parts_of_assemble_eq_ok hassembled
  exact above.namesApart

end Assembled

/-- A person with a name, two levels below a root with a key. -/
def namedPerson : ClassModel :=
  { Metamodel.entityBelow "Base" "Person" with attributes := [.plain "name" "String"] }

/-- The person, the root and the class between them, which declares one attribute. -/
def personBelow (declared : String) : Metamodel :=
  { Metamodel.empty "shop" with
    classes :=
      [{ ClassModel.empty "Root" .mappedSuperclass with attributes := [.plain "id" "long"] },
        { ClassModel.empty "Base" .mappedSuperclass with
          superclass := some "Root", attributes := [.plain declared "long"] },
        namedPerson] }

/-- Where the person is assembled. -/
def personPlace (declared : String) : Workplace :=
  { model := personBelow declared, options := .standard, subject := namedPerson }

/-- A version between the key and the name is a third name. -/
theorem visible_names_distinct_of_version :
    ∃ (artifact : JavaClass) (primes : PrimeSupply) (path : List ClassModel),
      assemble (personBelow "version") .standard namedPerson (PrimeSupply.fixed .standard) = (.ok artifact, primes)
        ∧ path.map (·.name) = ["Base", "Root"]
        ∧ (personPlace "version").visibleNames path = ["name", "version", "id"]
        ∧ ((personPlace "version").visibleNames path).Nodup
        ∧ ∀ d ∈ path, (personBelow "version").NamesApart d := by
  obtain ⟨artifact, primes, hassemble, -⟩ :=
    exists_ok_of_summary (assemble (personBelow "version") .standard namedPerson (PrimeSupply.fixed .standard))
      (·.name) (b := "Person") (by decide +kernel)
  obtain ⟨path, hpath, -, hiff, -⟩ := visible_names_distinct_iff hassemble
  have hseen : ((personBelow "version").ancestors namedPerson).toOption.map
      (fun path => (path.map (·.name), (personPlace "version").visibleNames path))
      = some (["Base", "Root"], ["name", "version", "id"]) := by decide +kernel
  rw [hpath, Except.toOption, Option.map_some, Option.some.injEq, Prod.mk.injEq] at hseen
  have hnodup : ((personPlace "version").visibleNames path).Nodup := by
    rw [hseen.2]
    decide
  exact ⟨artifact, primes, path, hassemble, hseen.1, hseen.2, hnodup, hiff.mp hnodup⟩

/-- A second key between the key and the name is seen beside it, and the person is assembled nevertheless. -/
theorem visible_names_repeat_id :
    ∃ (artifact : JavaClass) (primes : PrimeSupply) (path : List ClassModel),
      assemble (personBelow "id") .standard namedPerson (PrimeSupply.fixed .standard) = (.ok artifact, primes)
        ∧ (personBelow "id").ancestors namedPerson = .ok path
        ∧ (personPlace "id").visibleNames path = ["name", "id", "id"]
        ∧ ¬((personPlace "id").visibleNames path).Nodup := by
  obtain ⟨artifact, primes, hassemble, -⟩ :=
    exists_ok_of_summary (assemble (personBelow "id") .standard namedPerson (PrimeSupply.fixed .standard))
      (·.name) (b := "Person") (by decide +kernel)
  have hseen : ((personBelow "id").ancestors namedPerson).toOption.map (personPlace "id").visibleNames
      = some ["name", "id", "id"] := by decide +kernel
  obtain ⟨path, hpath, hnames⟩ := Option.map_eq_some_iff.mp hseen
  refine ⟨artifact, primes, path, hassemble, toOption_eq_some_iff.mp hpath, hnames, ?_⟩
  rw [hnames]
  decide

end EntityForge
