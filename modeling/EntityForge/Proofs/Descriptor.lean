import EntityForge.Proofs.Markup
import EntityForge.Proofs.WrittenSources

/-!
# What a descriptor says

The descriptor of a persistence unit is read with nothing but the rules of markup. What is read is the name of the unit
and the names of its classes, in their order, whatever characters are in them: no name can add an element or take one
away. So after a run in memory the descriptor names exactly the entities that the run wrote.

Main statement: `descriptor_names_written_entities`.
-/

namespace EntityForge

/-! ## The tags of a descriptor -/

/-- A text of lines has a line feed behind each of them. -/
theorem Text.unlines_eq_join {ls : List String} (h : ls ≠ []) : unlines ls = String.join (ls.map (· ++ "\n")) := by
  rw [unlines]
  induction ls with
  | nil => exact absurd rfl h
  | cons l rest ih =>
    cases rest with
    | nil => simp
    | cons next others =>
      rw [String.intercalate_cons_cons, List.map_cons, String.join_cons, ← ih (List.cons_ne_nil next others)]
      simp only [String.append_assoc]

namespace PersistenceUnit

/-- The tags before the classes, with the texts behind them. -/
def headPieces (name : String) : List (Xml.Tag × String) :=
  [(.instruction "xml version=\"1.0\" encoding=\"UTF-8\"", "\n"),
    (.opening "persistence" rootAttributes, "\n  "),
    (.opening "persistence-unit" [("name", name), ("transaction-type", "RESOURCE_LOCAL")], "\n    ")]

/-- The tags of the classes, with the texts behind them. -/
def classPieces (entities : List String) : List (Xml.Tag × String) :=
  entities.flatMap fun entity => [(.opening "class" [], entity), (.closing "class", "\n    ")]

/-- The tags after the classes, with the texts behind them. -/
def tailPieces : List (Xml.Tag × String) :=
  [(.opening "exclude-unlisted-classes" [], "true"), (.closing "exclude-unlisted-classes", "\n  "),
    (.closing "persistence-unit", "\n"), (.closing "persistence", "\n")]

/-- The tags of a descriptor, with the texts behind them. -/
def pieces (name : String) (entities : List String) : List (Xml.Tag × String) :=
  headPieces name ++ classPieces entities ++ tailPieces

/-- Line feeds and blanks are printed as they are. -/
theorem text_blank :
    Xml.text "\n" = "\n" ∧ Xml.text "\n  " = "\n" ++ "  " ∧ Xml.text "\n    " = "\n" ++ "    " := by
  decide +kernel

theorem print_headPieces (name : String) :
    Xml.print (headPieces name)
      = "<?xml version=\"1.0\" encoding=\"UTF-8\"?>" ++ "\n"
        ++ Xml.openTag "persistence" rootAttributes ++ "\n" ++ "  "
        ++ Xml.openTag "persistence-unit" [("name", name), ("transaction-type", "RESOURCE_LOCAL")] ++ "\n"
        ++ "    " := by
  have hdeclaration : "<?" ++ "xml version=\"1.0\" encoding=\"UTF-8\"" ++ "?>"
      = "<?xml version=\"1.0\" encoding=\"UTF-8\"?>" := by decide +kernel
  rw [← hdeclaration]
  simp only [headPieces, Xml.print, Xml.Tag.print, List.map_cons, List.map_nil, String.join_cons, String.join_nil,
    text_blank, String.append_assoc, String.append_empty]

theorem print_tailPieces :
    Xml.print tailPieces
      = Xml.textElement "exclude-unlisted-classes" "true" ++ "\n" ++ "  " ++ Xml.closeTag "persistence-unit" ++ "\n"
        ++ Xml.closeTag "persistence" ++ "\n" := by
  simp only [tailPieces, Xml.print, Xml.Tag.print, Xml.textElement, List.map_cons, List.map_nil, String.join_cons,
    String.join_nil, text_blank, String.append_assoc, String.append_empty]

/-- The classes are printed in lines of their own. The blanks that start the first line are those behind the tag before
it, and the blanks behind the last class start the line after it. -/
theorem print_classPieces (entities : List String) :
    "    " ++ Xml.print (classPieces entities)
      = String.join ((entities.map fun entity => "    " ++ Xml.textElement "class" entity).map (· ++ "\n"))
        ++ "    " := by
  induction entities with
  | nil => simp [classPieces, Xml.print]
  | cons entity rest ih =>
    have hcons : Xml.print (classPieces (entity :: rest))
        = Xml.textElement "class" entity ++ "\n" ++ ("    " ++ Xml.print (classPieces rest)) := by
      rw [classPieces, List.flatMap_cons, Xml.print_append, ← classPieces]
      simp only [Xml.print, Xml.textElement, Xml.Tag.print, List.map_cons, List.map_nil, String.join_cons,
        String.join_nil, text_blank, String.append_assoc, String.append_empty]
    rw [hcons, ih, List.map_cons, List.map_cons, String.join_cons]
    simp only [String.append_assoc]

/-- A descriptor is printed from its tags and the texts behind them. -/
theorem print_pieces (name : String) (entities : List String) :
    Xml.print (pieces name entities) = document name entities := by
  have hlines : lines name entities ≠ [] := by simp [lines]
  have hclasses : ∀ after : String, "    " ++ (Xml.print (classPieces entities) ++ after)
      = String.join ((entities.map fun entity => "    " ++ Xml.textElement "class" entity).map (· ++ "\n"))
        ++ ("    " ++ after) := by
    intro after
    rw [← String.append_assoc, print_classPieces, String.append_assoc]
  rw [document, Text.unlines_eq_join hlines, pieces, Xml.print_append, Xml.print_append, print_headPieces, print_tailPieces]
  simp only [lines, List.map_append, List.map_cons, List.map_nil, String.join_append, String.join_cons,
    String.join_nil, String.append_assoc, String.append_empty]
  rw [hclasses]

/-- The names in a descriptor are plain, whatever the names of the unit and of its classes are. -/
theorem isPlain_of_mem_pieces {name : String} {entities : List String} :
    ∀ p ∈ pieces name entities, p.1.isPlain = true := by
  intro p hp
  simp only [pieces, List.mem_append] at hp
  obtain (hp | hp) | hp := hp
  · have hhead : (headPieces name).all (·.1.isPlain) = true := by
      simp [headPieces, Xml.Tag.isPlain, Xml.isPlain, rootAttributes]
    exact List.all_eq_true.mp hhead p hp
  · obtain ⟨entity, -, hp⟩ := List.mem_flatMap.mp hp
    have hclass : Xml.isPlain "class" = true := by decide +kernel
    rcases List.mem_pair.mp hp with rfl | rfl
    · simp [Xml.Tag.isPlain, hclass]
    · exact hclass
  · have htail : tailPieces.all (·.1.isPlain) = true := by decide +kernel
    exact List.all_eq_true.mp htail p hp

/-! ## Reading a descriptor -/

/-- What a descriptor says: the name of its one persistence unit and the names of the classes in it. -/
def read? (descriptor : String) : Option (String × List String) := do
  let pieces ← Xml.read? descriptor
  match Xml.elements "persistence-unit" pieces with
  | [(attributes, _)] => do
    let name ← attributes.lookup "name"
    some (name, (Xml.elements "class" pieces).map (·.2))
  | _ => none

theorem elements_classPieces (entities : List String) :
    Xml.elements "class" (classPieces entities) = entities.map fun entity => ([], entity) := by
  induction entities with
  | nil => rfl
  | cons entity rest ih =>
    rw [classPieces, List.flatMap_cons, Xml.elements_append, ← classPieces, ih]
    rfl

/-- A descriptor is read as it was printed. -/
theorem xmlRead?_document (name : String) (entities : List String) :
    Xml.read? (document name entities) = some (pieces name entities) := by
  rw [← print_pieces]
  exact Xml.read?_print isPlain_of_mem_pieces

/-- A descriptor says which unit and which entities it was written for. -/
theorem read?_document (name : String) (entities : List String) :
    read? (document name entities) = some (name, entities) := by
  have hunit : Xml.elements "persistence-unit" (pieces name entities)
      = [([("name", name), ("transaction-type", "RESOURCE_LOCAL")], "\n    ")] := by
    have hclasses : Xml.elements "persistence-unit" (classPieces entities) = [] := by
      simp [Xml.elements, classPieces, List.filterMap_flatMap]
    rw [pieces, Xml.elements_append, Xml.elements_append, hclasses]
    simp [Xml.elements, headPieces, tailPieces]
  have hclasses : Xml.elements "class" (pieces name entities) = entities.map fun entity => ([], entity) := by
    rw [pieces, Xml.elements_append, Xml.elements_append, elements_classPieces]
    simp [Xml.elements, headPieces, tailPieces]
  simp [read?, xmlRead?_document, hunit, hclasses, Function.comp_def]

end PersistenceUnit

/-- Descriptors are the same exactly when they are of units of one name with the same entities, in the same order. -/
theorem Catalogue.persistenceUnit_eq_iff (catalogue other : Catalogue) (name name' : String) :
    catalogue.persistenceUnit name = other.persistenceUnit name'
      ↔ name = name'
        ∧ (catalogue.ofKind .entity).map (·.qualifiedName) = (other.ofKind .entity).map (·.qualifiedName) := by
  constructor
  · intro h
    have hread := congrArg PersistenceUnit.read? h
    rw [persistenceUnit, persistenceUnit, PersistenceUnit.read?_document, PersistenceUnit.read?_document,
      Option.some.injEq, Prod.mk.injEq] at hread
    exact hread
  · rintro ⟨rfl, hentities⟩
    rw [persistenceUnit, persistenceUnit, hentities]

/-! ## Descriptors of runs -/

section Memory

variable {σ : Type} [PrimeSource σ] {generator : Generator (StateM Sources)} {x y : σ × Sources} {report : Report}
  {outcomes : List StageOutcome} {o : StageOutcome}

/-- The classes that a stage generates are of its kinds. -/
theorem RunsTo.ofKind_of_mem_artifacts (h : RunsTo generator x y report outcomes) (ho : o ∈ outcomes)
    {artifact : JavaClass} (hartifact : artifact ∈ o.artifacts) : Stage.ofKind artifact.kind = o.stage := by
  obtain ⟨_, _, hstageRuns⟩ := h.runs.exists_of_mem ho
  rcases List.mem_append.mp hartifact with hdone | hhalt
  · obtain ⟨d, hd, rfl⟩ := List.mem_map.mp hdone
    obtain ⟨_, _, hgenerates⟩ := hstageRuns.generates_of_mem_done hd
    rw [hgenerates.generatedFrom.1]
    exact h.kinds o ho d.subject (List.mem_append_left _ (List.mem_map_of_mem hd))
  · obtain ⟨halt, hmem, hartifact⟩ := List.mem_flatMap.mp hhalt
    obtain ⟨_, _, hfails⟩ := hstageRuns.fails_of_halt (Option.mem_toList.mp hmem)
    rw [(hfails.generatedFrom (Option.mem_toList.mp hartifact)).1]
    exact h.kinds o ho halt.subject
      (List.mem_append_right _ (List.mem_flatMap.mpr ⟨halt, hmem, List.mem_cons_self⟩))

/-- The entities that a run in memory registers are those that their stage wrote. -/
theorem RunsTo.qualifiedNames_entities (h : RunsTo generator x y report outcomes)
    (hwriter : generator.write = Sources.writer) (ho : o ∈ outcomes) (hstage : o.stage = .entities) :
    (report.catalogue.ofKind .entity).map (·.qualifiedName) = o.units.map (·.className) := by
  obtain ⟨_, _, hstageRuns⟩ := h.runs.exists_of_mem ho
  have hentities : o.artifacts.filter (·.kind == .entity) = o.artifacts := by
    rw [List.filter_eq_self]
    intro artifact hartifact
    have hkind := (h.ofKind_of_mem_artifacts ho hartifact).trans hstage
    cases hof : artifact.kind with
    | entity => rfl
    | _ => simp [hof, Stage.ofKind] at hkind
  -- Keeping a source in memory cannot fail, so the stage wrote all that it generated.
  have hkind : Stage.ofKind .entity = o.stage := hstage.symm
  rw [h.ofKind_eq ho hkind, ← hstageRuns.filter_artifacts, hentities, (hstageRuns.inMemory hwriter).1, List.map_map]
  rfl

/-- A class that a run in memory wrote has a source. -/
theorem RunsTo.isSome_source? {sources : Sources} {before after : σ}
    (h : RunsTo generator (before, .empty) (after, sources) report outcomes)
    (hwriter : generator.write = Sources.writer) {unit : WrittenUnit} (hunit : unit ∈ report.written) :
    (sources.source? unit.className).isSome = true := by
  have hsources : sources = report.catalogue.registered.foldl Sources.put .empty := (h.inMemory hwriter).2
  rw [(h.inMemory hwriter).1] at hunit
  obtain ⟨c, hc, rfl⟩ := List.mem_map.mp hunit
  have hfound : (report.catalogue.registered.reverse.find? (·.qualifiedName == c.qualifiedName)).isSome = true := by
    rw [List.find?_isSome]
    exact ⟨c, List.mem_reverse.mpr hc, beq_self_eq_true _⟩
  rw [WrittenUnit.ofClass, hsources, Sources.source?_foldl_put, Option.isSome_or, Option.isSome_map, hfound,
    Bool.true_or]

end Memory

/-- **A descriptor tells the truth.** After a run in memory that returns a report, the descriptor of a unit of any name
says that very name and exactly the entities that their stage wrote, in their order, and there is nothing in it but what
any descriptor of so many entities has. Each of the entities has a source. Descriptors are the same exactly when their
units have the same name and the same entities. -/
theorem descriptor_names_written_entities {σ : Type} [PrimeSource σ] :
    (∀ (model : Metamodel) (options : GenerationOptions) (primes primes' : σ) (report : Report) (sources : Sources)
        (name : String), runInMemory model options primes = (.ok (report, primes'), sources) →
      ∃ outcomes,
        RunsTo { model, options, write := Sources.writer } (primes, .empty) (primes', sources) report outcomes
          ∧ report.written = outcomes.flatMap (·.units)
          ∧ ∃ o ∈ outcomes, o.stage = .entities
            ∧ PersistenceUnit.read? (report.catalogue.persistenceUnit name) = some (name, o.units.map (·.className))
            ∧ Xml.read? (report.catalogue.persistenceUnit name)
              = some (PersistenceUnit.pieces name (o.units.map (·.className)))
            ∧ ∀ unit ∈ o.units, (sources.source? unit.className).isSome = true)
      ∧ ∀ (catalogue other : Catalogue) (name name' : String),
        catalogue.persistenceUnit name = other.persistenceUnit name'
          ↔ name = name'
            ∧ (catalogue.ofKind .entity).map (·.qualifiedName) = (other.ofKind .entity).map (·.qualifiedName) := by
  refine ⟨fun model options primes primes' report sources name hrun => ?_, Catalogue.persistenceUnit_eq_iff⟩
  obtain ⟨outcomes, hruns⟩ := exists_runsTo hrun
  obtain ⟨o, ho, hstage⟩ := hruns.exists_outcome .entities
  have hwritten : report.written = outcomes.flatMap (·.units) := by
    rw [hruns.report_eq]
    rfl
  have hdocument : report.catalogue.persistenceUnit name
      = PersistenceUnit.document name (o.units.map (·.className)) := by
    rw [Catalogue.persistenceUnit, hruns.qualifiedNames_entities rfl ho hstage]
  refine ⟨outcomes, hruns, hwritten, o, ho, hstage, ?_, ?_, fun unit hunit => ?_⟩
  · rw [hdocument, PersistenceUnit.read?_document]
  · rw [hdocument, PersistenceUnit.xmlRead?_document]
  · have hmem : unit ∈ report.written := hwritten ▸ List.mem_flatMap.mpr ⟨o, ho, hunit⟩
    exact hruns.isSome_source? rfl hmem

/-- Three entities in a package whose name has markup in it. The second of them has no name that a class can have. -/
def markedShop : Metamodel :=
  { Metamodel.empty "r&d.<class>" with
    classes := [.empty "Order" .entity, .empty "2nd" .entity, .empty "Tag" .entity, .empty "Note" .bean] }

/-- Only the first entity is written, and the descriptor names it and no other class. -/
theorem descriptor_names_written_entities_markedShop :
    ∃ (report : Report) (primes : PrimeSupply) (sources : Sources) (o : StageOutcome),
      runInMemory markedShop fixedOptions (fixedOptions.supply 0) = (.ok (report, primes), sources)
        ∧ report.written.map (·.className) = ["r&d.<class>.Order", "r&d.<class>.Note"]
        ∧ o.units.map (·.className) = ["r&d.<class>.Order"]
        ∧ PersistenceUnit.read? (report.catalogue.persistenceUnit "R&D <\"main\">")
          = some ("R&D <\"main\">", o.units.map (·.className))
        ∧ ∀ unit ∈ o.units, (sources.source? unit.className).isSome = true := by
  obtain ⟨report, primes, sources, hrun, hsummary⟩ :=
    exists_report (runInMemory markedShop fixedOptions (fixedOptions.supply 0))
      (fun report => (report.written.map (·.className), (report.catalogue.ofKind .entity).map (·.qualifiedName)))
      (a := (["r&d.<class>.Order", "r&d.<class>.Note"], ["r&d.<class>.Order"])) (by decide +kernel)
  rw [Prod.mk.injEq] at hsummary
  obtain ⟨-, -, -, o, -, -, hread, -, hsome⟩ :=
    descriptor_names_written_entities.1 markedShop fixedOptions _ _ report sources "R&D <\"main\">" hrun
  have hunits : o.units.map (·.className) = ["r&d.<class>.Order"] := by
    have hsays := hread.symm.trans (PersistenceUnit.read?_document _ _)
    rw [Option.some.injEq, Prod.mk.injEq] at hsays
    exact hsays.2.trans hsummary.2
  exact ⟨report, primes, sources, o, hrun, hsummary.1, hunits, hread, hsome⟩

end EntityForge
