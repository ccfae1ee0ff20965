import EntityForge.Proofs.WrittenSources
import Mathlib.Algebra.GroupWithZero.Nat
import Mathlib.Data.List.DropRight

/-!
# Catalogue and sources as a log tells them

Classes are registered in a catalogue, which may be cleared, and written to sources in memory. Whatever is done in
whatever order, both show what can be read from the log of the operations alone: the catalogue the classes that were
registered since it was last cleared, the sources the class that was last written under each name.

Main statement: `session_shows_log`.
-/

namespace EntityForge

/-! ## The log -/

/-- What can be done to a catalogue and to the sources beside it. -/
inductive Operation where
  /-- A class is registered in the catalogue. -/
  | register (c : JavaClass)
  /-- The catalogue is cleared. -/
  | clear
  /-- A class is written to the sources. -/
  | write (c : JavaClass)

namespace Operation

def isClear : Operation → Bool
  | clear => true
  | _ => false

def registered? : Operation → Option JavaClass
  | register c => some c
  | _ => none

def written? : Operation → Option JavaClass
  | write c => some c
  | _ => none

end Operation

/-- The classes of a log that were registered after the catalogue was last cleared, in their order. -/
def registeredSinceClear (log : List Operation) : List JavaClass :=
  (log.rtakeWhile (!·.isClear)).filterMap (·.registered?)

/-- All classes of a log that were written, in their order. -/
def writtenOf (log : List Operation) : List JavaClass :=
  log.filterMap (·.written?)

section Concat

variable {log : List Operation} {c : JavaClass}

@[simp] theorem registeredSinceClear_register :
    registeredSinceClear (log ++ [.register c]) = registeredSinceClear log ++ [c] := by
  rw [registeredSinceClear, List.rtakeWhile_concat_pos _ _ _ rfl, List.filterMap_append]
  rfl

@[simp] theorem registeredSinceClear_clear : registeredSinceClear (log ++ [.clear]) = [] := by
  rw [registeredSinceClear, List.rtakeWhile_concat_neg _ _ _ (by simp [Operation.isClear])]
  rfl

@[simp] theorem registeredSinceClear_write :
    registeredSinceClear (log ++ [.write c]) = registeredSinceClear log := by
  rw [registeredSinceClear, List.rtakeWhile_concat_pos _ _ _ rfl, List.filterMap_append]
  exact List.append_nil _

@[simp] theorem writtenOf_register : writtenOf (log ++ [.register c]) = writtenOf log := by
  simp [writtenOf, Operation.written?]

@[simp] theorem writtenOf_clear : writtenOf (log ++ [.clear]) = writtenOf log := by
  simp [writtenOf, Operation.written?]

@[simp] theorem writtenOf_write : writtenOf (log ++ [.write c]) = writtenOf log ++ [c] := by
  simp [writtenOf, Operation.written?]

end Concat

/-- A catalogue and the sources beside it, and what the writer has answered so far. -/
structure Session where
  catalogue : Catalogue
  sources : Sources
  answers : List (Except GenerationError WrittenUnit)

namespace Session

/-- Nothing is registered and nothing is written. -/
def start : Session :=
  { catalogue := .empty, sources := .empty, answers := [] }

/-- The session after one more operation. -/
def perform (session : Session) : Operation → Session
  | .register c => { session with catalogue := session.catalogue.register c }
  | .clear => { session with catalogue := session.catalogue.clear }
  | .write c =>
    let (answer, sources) := (Sources.writer c).run session.sources
    { session with sources, answers := session.answers ++ [answer] }

/-- The session after the operations of a log, one after the other. -/
def ofLog (log : List Operation) : Session :=
  log.foldl perform start

/-- The parts of a session, read from a log. -/
structure Follows (session : Session) (log : List Operation) : Prop where
  registered : session.catalogue.registered = registeredSinceClear log
  sources : session.sources = (writtenOf log).foldl Sources.put .empty
  answers : session.answers = (writtenOf log).map fun c => .ok (.ofClass c none)

/-- An operation does to the session what it does to the log. -/
theorem Follows.perform {session : Session} {log : List Operation} (h : session.Follows log) (o : Operation) :
    (session.perform o).Follows (log ++ [o]) := by
  obtain ⟨hregistered, hsources, hanswers⟩ := h
  cases o with
  | register c =>
    constructor
    · rw [registeredSinceClear_register, ← hregistered]
      rfl
    · rw [writtenOf_register]
      exact hsources
    · rw [writtenOf_register]
      exact hanswers
  | clear =>
    constructor
    · rw [registeredSinceClear_clear]
      rfl
    · rw [writtenOf_clear]
      exact hsources
    · rw [writtenOf_clear]
      exact hanswers
  | write c =>
    constructor
    · rw [registeredSinceClear_write]
      exact hregistered
    · rw [writtenOf_write, List.foldl_append, ← hsources]
      rfl
    · rw [writtenOf_write, List.map_append, ← hanswers]
      rfl

/-- A session follows the log of all its operations. -/
theorem follows_ofLog (log : List Operation) : (ofLog log).Follows log := by
  induction log using List.reverseRecOn with
  | nil => exact ⟨rfl, rfl, rfl⟩
  | append_singleton log o ih =>
    rw [ofLog, List.foldl_append]
    exact ih.perform o

end Session

/-! ## What a catalogue shows -/

namespace Catalogue

variable {kinds : List ClassKind}

/-- The classes of some kinds are those whose kinds are among them, in some order. -/
theorem flatMap_ofKind_perm (catalogue : Catalogue) (hnodup : kinds.Nodup) :
    (kinds.flatMap catalogue.ofKind).Perm (catalogue.registered.filter (·.kind ∈ kinds)) := by
  induction kinds with
  | nil => simp
  | cons kind rest ih =>
    obtain ⟨hnot, hrest⟩ := List.nodup_cons.mp hnodup
    have hof : (catalogue.registered.filter (·.kind ∈ kind :: rest)).filter (·.kind == kind)
        = catalogue.ofKind kind := by
      rw [List.filter_filter, ofKind_eq_filter]
      refine List.filter_congr fun c _ => ?_
      by_cases hkind : c.kind = kind <;> simp [hkind]
    have hothers : (catalogue.registered.filter (·.kind ∈ kind :: rest)).filter (fun c => !(c.kind == kind))
        = catalogue.registered.filter (·.kind ∈ rest) := by
      rw [List.filter_filter]
      refine List.filter_congr fun c _ => ?_
      by_cases hkind : c.kind = kind <;> simp [hkind, hnot]
    have hsplit := List.filter_append_perm (·.kind == kind) (catalogue.registered.filter (·.kind ∈ kind :: rest))
    rw [hof, hothers] at hsplit
    rw [List.flatMap_cons]
    exact ((ih hrest).append_left _).trans hsplit

/-- The list of all classes holds each as often as it was registered. -/
theorem toList_perm (catalogue : Catalogue) : catalogue.toList.Perm catalogue.registered := by
  have hall : catalogue.registered.filter (·.kind ∈ (Spelled.values : List ClassKind)) = catalogue.registered :=
    List.filter_eq_self.mpr fun c _ => decide_eq_true (Spelled.mem_values c.kind)
  have hnodup : (Spelled.values : List ClassKind).Nodup := by decide
  have hperm := flatMap_ofKind_perm catalogue hnodup
  rwa [hall, ← toList_eq_flatMap_ofKind] at hperm

/-- The groups hold as many classes as the list. -/
theorem size_eq_length_toList (catalogue : Catalogue) : catalogue.size = catalogue.toList.length := by
  have hcount : ∀ (groups : List (ClassKind × List JavaClass)) (n : ℕ),
      groups.foldl (fun n group => n + group.2.length) n = n + (groups.flatMap (·.2)).length := by
    intro groups
    induction groups with
    | nil => exact fun n => rfl
    | cons group rest ih =>
      intro n
      rw [List.foldl_cons, ih, List.flatMap_cons, List.length_append, Nat.add_assoc]
  rw [size, hcount, Nat.zero_add, toList]

/-- A name is found exactly when a registered class has it. -/
theorem find?_isSome_iff (catalogue : Catalogue) (name : String) :
    (catalogue.find? name).isSome = true ↔ ∃ c ∈ catalogue.registered, c.qualifiedName = name := by
  simp [find?, mem_toList]

/-- The class found under a name is the first of that name in the list. -/
theorem find?_eq_some_iff (catalogue : Catalogue) (name : String) (c : JavaClass) :
    catalogue.find? name = some c
      ↔ c.qualifiedName = name ∧ ∃ before after, catalogue.toList = before ++ c :: after
        ∧ ∀ other ∈ before, other.qualifiedName ≠ name := by
  simp [find?, List.find?_eq_some_iff_append]

end Catalogue

/-- A catalogue shows some classes: it groups them by their kinds, in the order of the kinds, and within a group they
keep their own order. -/
structure Catalogue.Shows (catalogue : Catalogue) (classes : List JavaClass) : Prop where
  /-- The groups are those that the classes make one after the other. -/
  groups_eq : catalogue.groups = classes.foldl insertInGroup []
  ofKind_eq_group : ∀ kind, catalogue.ofKind kind = (catalogue.groups.lookup kind).getD []
  toList_eq_groups : catalogue.toList = catalogue.groups.flatMap (·.2)
  size_eq_groups : catalogue.size = (catalogue.groups.map (·.2.length)).sum
  /-- Of a kind it shows all classes, and in the order in which they are given. -/
  ofKind_eq : ∀ kind, catalogue.ofKind kind = classes.filter (·.kind = kind)
  ofKind_sublist : ∀ kind, (catalogue.ofKind kind).Sublist classes
  toList_eq : catalogue.toList
    = catalogue.ofKind .mappedSuperclass ++ catalogue.ofKind .entity ++ catalogue.ofKind .embeddable
      ++ catalogue.ofKind .idClass ++ catalogue.ofKind .embeddedId ++ catalogue.ofKind .bean
  toList_perm : catalogue.toList.Perm classes
  size_eq : catalogue.size = catalogue.toList.length
  isEmpty_iff : catalogue.isEmpty = true ↔ catalogue.toList = []
  find?_isSome_iff : ∀ name, (catalogue.find? name).isSome = true ↔ ∃ c ∈ classes, c.qualifiedName = name
  /-- What is found under a name is the first class of the name in the whole list. -/
  find?_eq_some_iff : ∀ name c, catalogue.find? name = some c
    ↔ c.qualifiedName = name ∧ ∃ before after, catalogue.toList = before ++ c :: after
      ∧ ∀ other ∈ before, other.qualifiedName ≠ name

/-- A catalogue shows the classes that are registered in it. -/
theorem Catalogue.shows_registered (catalogue : Catalogue) : catalogue.Shows catalogue.registered where
  groups_eq := catalogue.groups_eq_foldl
  ofKind_eq_group _ := rfl
  toList_eq_groups := rfl
  size_eq_groups := by rw [size_eq_length_toList, toList, List.length_flatMap]
  ofKind_eq := catalogue.ofKind_eq_filter
  ofKind_sublist kind := by
    rw [ofKind_eq_filter]
    exact List.filter_sublist
  toList_eq := by simp [toList_eq_flatMap_ofKind, Spelled.values]
  toList_perm := catalogue.toList_perm
  size_eq := catalogue.size_eq_length_toList
  isEmpty_iff := by
    rw [isEmpty, beq_iff_eq, size_eq_length_toList, List.length_eq_zero_iff]
  find?_isSome_iff := catalogue.find?_isSome_iff
  find?_eq_some_iff := catalogue.find?_eq_some_iff

/-! ## What the sources keep -/

/-- Sources keep the last of some classes under each name. -/
structure Sources.Keep (sources : Sources) (classes : List JavaClass) : Prop where
  mem_names_iff : ∀ name, name ∈ sources.names ↔ ∃ c ∈ classes, c.qualifiedName = name
  names_ascend : sources.names.Pairwise (· < ·)
  /-- What is found under a name is the source of the last class of the name. -/
  source?_eq_some_iff : ∀ name text, sources.source? name = some text
    ↔ ∃ before c after, classes = before ++ c :: after ∧ c.qualifiedName = name ∧ c.source = text
      ∧ ∀ later ∈ after, later.qualifiedName ≠ name
  mem_table_iff : ∀ name text, (name, text) ∈ sources.table ↔ sources.source? name = some text

namespace Sources

/-- Under a name stands the source of the last class of the name. -/
theorem source?_foldl_put_eq_some_iff (classes : List JavaClass) (name text : String) :
    (classes.foldl put empty).source? name = some text
      ↔ ∃ before c after, classes = before ++ c :: after ∧ c.qualifiedName = name ∧ c.source = text
        ∧ ∀ later ∈ after, later.qualifiedName ≠ name := by
  have hnone : empty.source? name = none := rfl
  rw [source?_foldl_put, hnone, Option.or_none, Option.map_eq_some_iff]
  constructor
  · rintro ⟨c, hfind, htext⟩
    obtain ⟨hname, later, earlier, hsplit, hlater⟩ := List.find?_eq_some_iff_append.mp hfind
    refine ⟨earlier.reverse, c, later.reverse, ?_, beq_iff_eq.mp hname, htext, fun d hd => ?_⟩
    · rw [← List.reverse_reverse classes, hsplit]
      simp
    · simpa using hlater d (List.mem_reverse.mp hd)
  · rintro ⟨before, c, after, rfl, hname, htext, hafter⟩
    refine ⟨c, List.find?_eq_some_iff_append.mpr ⟨beq_iff_eq.mpr hname, after.reverse, before.reverse, ?_, ?_⟩, htext⟩
    · simp
    · intro d hd
      simpa using hafter d (List.mem_reverse.mp hd)

/-- Where the names ascend, an entry is what is found under its name. -/
theorem mem_table_iff {sources : Sources} (h : sources.names.Pairwise (· < ·)) (name text : String) :
    (name, text) ∈ sources.table ↔ sources.source? name = some text := by
  rw [source?, List.lookup_eq_some_iff]
  constructor
  · intro hmem
    obtain ⟨before, after, hsplit⟩ := List.append_of_mem hmem
    rw [names, hsplit, List.map_append, List.pairwise_append] at h
    refine ⟨before, after, hsplit, fun entry hentry => ?_⟩
    have hlt : entry.1 < name := h.2.2 entry.1 (List.mem_map_of_mem hentry) name (by simp)
    rw [bne_iff_ne]
    rintro rfl
    exact String.lt_irrefl _ hlt
  · rintro ⟨before, after, hsplit, -⟩
    rw [hsplit]
    simp

/-- Classes that are put one after the other are kept. -/
theorem keep_foldl_put (classes : List JavaClass) : (classes.foldl put empty).Keep classes := by
  have hempty : empty.names.Pairwise (· < ·) := List.Pairwise.nil
  obtain ⟨hsorted, hmem⟩ := names_foldl_put classes hempty
  refine ⟨fun name => ?_, hsorted, source?_foldl_put_eq_some_iff classes, mem_table_iff hsorted⟩
  have hnot : name ∉ empty.names := List.not_mem_nil
  rw [hmem, or_iff_left hnot, List.mem_map]

end Sources

/-- **Catalogue and sources as a log tells them.** After any operations in any order, the catalogue shows the classes
that were registered since it was last cleared. The sources keep the last class that was written under each name,
however often the catalogue was cleared, and the writer has answered each class with its full name and the number of
bytes of its source. -/
theorem session_shows_log (log : List Operation) :
    (Session.ofLog log).catalogue.Shows (registeredSinceClear log)
      ∧ (Session.ofLog log).sources.Keep (writtenOf log)
      ∧ (Session.ofLog log).answers
        = (writtenOf log).map fun c =>
            .ok { className := c.qualifiedName, path := none, bytes := c.source.utf8ByteSize } := by
  obtain ⟨hregistered, hsources, hanswers⟩ := Session.follows_ofLog log
  refine ⟨?_, ?_, hanswers⟩
  · rw [← hregistered]
    exact Catalogue.shows_registered _
  · rw [hsources]
    exact Sources.keep_foldl_put _

end EntityForge
