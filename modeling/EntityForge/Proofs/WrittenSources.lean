import EntityForge.Proofs.DeclarationOrder
import Mathlib.Data.List.Dedup
import Mathlib.Data.List.Find
import Mathlib.Data.List.Flatten

/-!
# Sources kept in memory

Sources are kept under the full names of their classes, and the last one put under a name is the one that stays. So a
run in memory keeps a source for each class that it writes exactly when it writes no two classes of one full name. The
full names of classes that can be assembled differ as soon as their packages or names do.

Main statement: `runInMemory_keeps_each_iff`.
-/

namespace EntityForge

/-! ## Tables of sources -/

/-- Putting a value under a key inserts the key among those of the table. -/
theorem Text.map_fst_putSorted {α : Type} (key : String) (value : α) (table : List (String × α)) :
    (Text.putSorted key value table).map (·.1) = Text.insertSorted key (table.map (·.1)) := by
  induction table with
  | nil => rfl
  | cons entry rest ih =>
    rw [Text.putSorted, List.map_cons, Text.insertSorted]
    split
    · rfl
    · split
      · next heq => rw [List.map_cons, heq]
      · rw [List.map_cons, ih]

namespace Sources

/-- The names after a class was put are those before and that of the class. -/
theorem names_put (sources : Sources) (c : JavaClass) :
    (sources.put c).names = Text.insertSorted c.qualifiedName sources.names :=
  Text.map_fst_putSorted _ _ _

/-- Names stay in ascending order, and those of all classes that are put are added. -/
theorem names_foldl_put (artifacts : List JavaClass) {sources : Sources} (h : sources.names.Pairwise (· < ·)) :
    (artifacts.foldl put sources).names.Pairwise (· < ·)
      ∧ ∀ name, name ∈ (artifacts.foldl put sources).names
        ↔ name ∈ artifacts.map (·.qualifiedName) ∨ name ∈ sources.names := by
  induction artifacts generalizing sources with
  | nil => exact ⟨h, fun name => by simp⟩
  | cons a rest ih =>
    have hput : (sources.put a).names.Pairwise (· < ·) := by
      rw [names_put]
      exact Text.pairwise_insertSorted h
    obtain ⟨hsorted, hmem⟩ := ih hput
    refine ⟨hsorted, fun name => ?_⟩
    rw [List.foldl_cons, hmem, names_put, Text.mem_insertSorted, List.map_cons, List.mem_cons]
    tauto

/-- There are as many sources as there are different names among the classes that were put. -/
theorem size_foldl_put (artifacts : List JavaClass) :
    (artifacts.foldl put empty).size = (artifacts.map (·.qualifiedName)).dedup.length := by
  have hempty : empty.names.Pairwise (· < ·) := List.Pairwise.nil
  obtain ⟨hsorted, hmem⟩ := names_foldl_put artifacts hempty
  have hnodup : (artifacts.foldl put empty).names.Nodup := by
    refine hsorted.imp ?_
    rintro name _ hlt rfl
    exact String.lt_irrefl name hlt
  have hperm : (artifacts.foldl put empty).names.Perm (artifacts.map (·.qualifiedName)).dedup := by
    rw [List.perm_ext_iff_of_nodup hnodup (List.nodup_dedup _)]
    intro name
    rw [hmem, List.mem_dedup]
    simp [empty, names]
  rw [← hperm.length_eq, size, names, List.length_map]

/-- Under a name stands the source of the last class of that name that was put. -/
theorem source?_foldl_put (artifacts : List JavaClass) (sources : Sources) (name : String) :
    (artifacts.foldl put sources).source? name
      = ((artifacts.reverse.find? (·.qualifiedName == name)).map (·.source)).or (sources.source? name) := by
  induction artifacts generalizing sources with
  | nil => rfl
  | cons a rest ih =>
    rw [List.foldl_cons, ih, List.reverse_cons, List.find?_append, source?_put]
    cases rest.reverse.find? (·.qualifiedName == name) with
    | some b => rfl
    | none =>
      by_cases hname : a.qualifiedName = name
      · simp [hname]
      · simp [hname, Ne.symm hname]

end Sources

/-! ## Full names -/

/-- Classes whose names have no dots share a full name only when they share the package and the name. -/
theorem qualify_inj {package other name name' : String} (hname : '.' ∉ name.toList) (hname' : '.' ∉ name'.toList)
    (h : qualify package name = qualify other name') : package = other ∧ name = name' := by
  obtain rfl : name = name' := by
    have hsimple : simpleName (qualify package name) = name := simpleName_qualify hname
    rw [← hsimple, h, simpleName_qualify hname']
  refine ⟨?_, rfl⟩
  -- In the empty package the full name is the name itself, which has no dot.
  have hdotted : ∀ package : String, name ≠ package ++ "." ++ name := by
    intro package heq
    refine hname ?_
    rw [heq]
    simp
  unfold qualify at h
  split at h
  · next hpackage =>
    split at h
    · next hother => rw [hpackage, hother]
    · exact absurd h (hdotted other)
  · split at h
    · exact absurd h.symm (hdotted package)
    · rw [← String.toList_inj] at h ⊢
      simpa using h

/-! ## What a run keeps -/

/-- The classes that were written in some stages, one after the other. -/
def writtenIn (outcomes : List StageOutcome) : List Done :=
  outcomes.flatMap (·.done)

section Memory

variable {σ : Type} [PrimeSource σ] {generator : Generator (StateM Sources)} {x y : σ × Sources} {report : Report}
  {outcomes : List StageOutcome}

/-- What is written in memory is all that is generated. -/
theorem StagesRun.flatMap_artifacts (h : StagesRun generator x outcomes y)
    (hwriter : generator.write = Sources.writer) :
    outcomes.flatMap (·.artifacts) = (writtenIn outcomes).map (·.artifact) := by
  rw [writtenIn, List.map_flatMap]
  refine List.flatMap_congr fun o ho => ?_
  obtain ⟨_, _, hstage⟩ := h.exists_of_mem ho
  cases hhalt : o.halt with
  | none => simp [StageOutcome.artifacts, hhalt]
  | some halt =>
    obtain ⟨_, _, hfails⟩ := hstage.fails_of_halt hhalt
    simp [StageOutcome.artifacts, hhalt, (hfails.inMemory hwriter).1]

/-- The classes that were written were generated. -/
theorem StagesRun.generates_of_mem (h : StagesRun generator x outcomes y) {d : Done} (hd : d ∈ writtenIn outcomes) :
    ∃ before after : σ × Sources, Generates generator before d after := by
  obtain ⟨o, ho, hd⟩ := List.mem_flatMap.mp hd
  obtain ⟨_, _, hstage⟩ := h.exists_of_mem ho
  exact hstage.generates_of_mem_done hd

/-- The unit of a written class is that of its source. -/
theorem StagesRun.unit_eq (h : StagesRun generator x outcomes y) (hwriter : generator.write = Sources.writer) :
    ∀ d ∈ writtenIn outcomes, d.unit = .ofClass d.artifact none := by
  intro d hd
  obtain ⟨_, _, hgenerates⟩ := h.generates_of_mem hd
  exact (hgenerates.inMemory hwriter).1

/-- The names of the classes that are written are identifiers. -/
theorem Generates.isIdentifier {d : Done} (h : Generates generator x d y) :
    Java.isIdentifier d.subject.name = true := by
  obtain ⟨parts, -⟩ := exists_parts_of_assemble_eq_ok h.1
  exact parts.className

/-- In a metamodel where no two classes that are to be generated share both package and name, no two classes are
written under one full name. -/
theorem RunsTo.nodup_classNames (h : RunsTo generator x y report outcomes)
    (hwriter : generator.write = Sources.writer)
    (hdistinct : ((generator.model.classes.filter (·.generateSource)).map
      fun c => (c.packageOr generator.model.package, c.name)).Nodup) :
    ((writtenIn outcomes).map (·.unit.className)).Nodup := by
  -- The written classes are among the planned ones, each of which is a class of the metamodel.
  have hsublist : ((writtenIn outcomes).map (·.subject)).Sublist (outcomes.flatMap (·.planned)) := by
    rw [writtenIn, List.map_flatMap]
    exact List.Sublist.flatMap_right outcomes fun o _ => List.sublist_append_left _ _
  have hsubjects : ((writtenIn outcomes).map fun d =>
      (d.subject.packageOr generator.model.package, d.subject.name)).Nodup := by
    have hplanned := (h.planned_perm.map
      fun c => (c.packageOr generator.model.package, c.name)).nodup_iff.mpr hdistinct
    have hnodup := hplanned.sublist (hsublist.map _)
    rwa [List.map_map] at hnodup
  rw [List.Nodup, List.pairwise_map] at hsubjects ⊢
  refine hsubjects.imp_of_mem fun {d e} hd he hne hsame => hne ?_
  obtain ⟨_, _, hgenerates⟩ := h.runs.generates_of_mem hd
  obtain ⟨_, _, hothers⟩ := h.runs.generates_of_mem he
  obtain ⟨-, -, hfull⟩ := hgenerates.generatedFrom
  obtain ⟨-, -, hother⟩ := hothers.generatedFrom
  rw [h.runs.unit_eq hwriter d hd, h.runs.unit_eq hwriter e he] at hsame
  have hqualified : d.artifact.qualifiedName = e.artifact.qualifiedName := hsame
  rw [hfull, hother] at hqualified
  obtain ⟨hpackage, hname⟩ := qualify_inj (Java.dot_not_mem_of_isIdentifier hgenerates.isIdentifier)
    (Java.dot_not_mem_of_isIdentifier hothers.isIdentifier) hqualified
  rw [hpackage, hname]

end Memory

/-- The sources have one source for each written class: that of the very class, which has as many bytes as the writer
said. -/
structure KeepsEach (sources : Sources) (written : List Done) : Prop where
  size_eq : sources.size = written.length
  source?_eq : ∀ d ∈ written, sources.source? d.unit.className = some d.artifact.source
  bytes_eq : ∀ d ∈ written, d.unit.bytes = d.artifact.source.utf8ByteSize

section Kept

variable {written : List Done}

/-- Under a name stands the source of the last class that was written under it. -/
theorem source?_of_written (hunits : ∀ d ∈ written, d.unit = .ofClass d.artifact none) (name : String) :
    ((written.map (·.artifact)).foldl Sources.put .empty).source? name
      = (written.reverse.find? (·.unit.className == name)).map (·.artifact.source) := by
  have hfind : written.reverse.find? ((·.qualifiedName == name) ∘ (·.artifact))
      = written.reverse.find? (·.unit.className == name) := by
    refine List.find?_congr fun d hd => ?_
    rw [hunits d (List.mem_reverse.mp hd)]
    rfl
  rw [Sources.source?_foldl_put, ← List.map_reverse, List.find?_map, hfind, Option.map_map]
  exact Option.or_none

/-- Each source is kept exactly when all are written under different names. -/
theorem keepsEach_iff (hunits : ∀ d ∈ written, d.unit = .ofClass d.artifact none) :
    KeepsEach ((written.map (·.artifact)).foldl Sources.put .empty) written
      ↔ (written.map (·.unit.className)).Nodup := by
  have hnames : (written.map (·.artifact)).map (·.qualifiedName) = written.map (·.unit.className) := by
    rw [List.map_map]
    refine List.map_congr_left fun d hd => ?_
    rw [hunits d hd]
    rfl
  have hsize : ((written.map (·.artifact)).foldl Sources.put .empty).size
      = (written.map (·.unit.className)).dedup.length := by
    rw [Sources.size_foldl_put, hnames]
  constructor
  · intro hkeeps
    have hlength : (written.map (·.unit.className)).dedup.length = (written.map (·.unit.className)).length := by
      rw [← hsize, hkeeps.size_eq, List.length_map]
    rw [← List.dedup_eq_self]
    exact (List.dedup_sublist _).eq_of_length hlength
  · intro hnodup
    refine ⟨?_, fun d hd => ?_, fun d hd => ?_⟩
    · rw [hsize, List.dedup_eq_self.mpr hnodup, List.length_map]
    · have hreverse : (written.reverse.map (·.unit.className)).Nodup := by
        rw [List.map_reverse]
        exact List.nodup_reverse.mpr hnodup
      have hfound := (find?_eq_some_iff_of_nodup hreverse).mpr ⟨List.mem_reverse.mpr hd, rfl⟩
      rw [source?_of_written hunits, hfound]
      rfl
    · rw [hunits d hd]
      rfl

end Kept

/-- **Sources kept in memory.** A run in memory that returns a report writes its units for classes that it generated,
and under each name it keeps the source of the last class that it wrote under that name. So it keeps one source for each
unit, that of the class that the unit was written for, exactly when all units have different names. This is so when no
two classes that are to be generated share both package and name. -/
theorem runInMemory_keeps_each_iff {σ : Type} [PrimeSource σ] {model : Metamodel} {options : GenerationOptions}
    {primes primes' : σ} {report : Report} {sources : Sources}
    (hrun : runInMemory model options primes = (.ok (report, primes'), sources)) :
    ∃ outcomes,
      RunsTo { model, options, write := Sources.writer } (primes, .empty) (primes', sources) report outcomes
        ∧ report.written = (writtenIn outcomes).map (·.unit)
        ∧ (∀ name, sources.source? name
          = ((writtenIn outcomes).reverse.find? (·.unit.className == name)).map (·.artifact.source))
        ∧ (KeepsEach sources (writtenIn outcomes) ↔ (report.written.map (·.className)).Nodup)
        ∧ (((model.classes.filter (·.generateSource)).map fun c => (c.packageOr model.package, c.name)).Nodup →
          KeepsEach sources (writtenIn outcomes)) := by
  obtain ⟨outcomes, hruns⟩ := exists_runsTo hrun
  have hunits := hruns.runs.unit_eq rfl
  have hwritten : report.written = (writtenIn outcomes).map (·.unit) := by
    rw [hruns.report_eq, writtenIn, List.map_flatMap]
    rfl
  have hsources : sources = ((writtenIn outcomes).map (·.artifact)).foldl Sources.put .empty := by
    rw [← hruns.runs.flatMap_artifacts rfl]
    exact (hruns.runs.inMemory rfl).2
  have hkeeps : KeepsEach sources (writtenIn outcomes) ↔ (report.written.map (·.className)).Nodup := by
    rw [hsources, keepsEach_iff hunits, hwritten, List.map_map]
    rfl
  refine ⟨outcomes, hruns, hwritten, fun name => ?_, hkeeps, fun hdistinct => ?_⟩
  · rw [hsources, source?_of_written hunits]
  · rw [hkeeps, hwritten, List.map_map]
    exact hruns.nodup_classNames rfl hdistinct

/-- Orders, and the orders of an archive, which is a package of its own. -/
def archivedOrders : Metamodel :=
  { Metamodel.empty "shop" with
    classes := [.empty "Order" .entity, { ClassModel.empty "Order" .bean with package := some "shop.archive" }] }

/-- Classes of one name in two packages are both kept. -/
theorem runInMemory_keeps_archivedOrders :
    ∃ (report : Report) (primes : PrimeSupply) (sources : Sources) (outcomes : List StageOutcome),
      runInMemory archivedOrders fixedOptions (fixedOptions.supply 0) = (.ok (report, primes), sources)
        ∧ report.written.map (·.className) = ["shop.Order", "shop.archive.Order"]
        ∧ report.written = (writtenIn outcomes).map (·.unit)
        ∧ KeepsEach sources (writtenIn outcomes) := by
  obtain ⟨report, primes, sources, hrun, hwritten⟩ :=
    exists_report (runInMemory archivedOrders fixedOptions (fixedOptions.supply 0))
      (fun report => report.written.map (·.className)) (a := ["shop.Order", "shop.archive.Order"])
      (by decide +kernel)
  obtain ⟨outcomes, -, hunits, -, -, hkeeps⟩ := runInMemory_keeps_each_iff hrun
  exact ⟨report, primes, sources, outcomes, hrun, hwritten, hunits, hkeeps (by decide)⟩

/-- An entity and a bean of one name and package. -/
def clashingOrders : Metamodel :=
  { Metamodel.empty "shop" with classes := [.empty "Order" .entity, .empty "Order" .bean] }

/-- Both are written without any failure, and only the source of the bean is kept, which is shorter than that of the
entity. -/
theorem runInMemory_loses_entity :
    ∃ (report : Report) (primes : PrimeSupply) (sources : Sources),
      runInMemory clashingOrders fixedOptions (fixedOptions.supply 0) = (.ok (report, primes), sources)
        ∧ report.isSuccess = true
        ∧ report.written = [⟨"shop.Order", none, 80⟩, ⟨"shop.Order", none, 38⟩]
        ∧ sources.size = 1
        ∧ sources.source? "shop.Order" = some "package shop;\n\npublic class Order \x7b\n\x7d\n" := by
  obtain ⟨report, primes, sources, hrun, hsummary⟩ :=
    exists_report (runInMemory clashingOrders fixedOptions (fixedOptions.supply 0))
      (fun report => (report.isSuccess, report.written))
      (a := (true, [⟨"shop.Order", none, 80⟩, ⟨"shop.Order", none, 38⟩])) (by decide +kernel)
  rw [Prod.mk.injEq] at hsummary
  have hkept : (runInMemory clashingOrders fixedOptions (fixedOptions.supply 0)).2
      = ⟨[("shop.Order", "package shop;\n\npublic class Order \x7b\n\x7d\n")]⟩ := by
    decide +kernel
  rw [hrun] at hkept
  obtain rfl : sources = _ := hkept
  exact ⟨report, primes, _, hrun, hsummary.1, hsummary.2, rfl, by decide⟩

end EntityForge
