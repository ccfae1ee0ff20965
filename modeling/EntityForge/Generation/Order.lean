import EntityForge.Generation.Error

/-!
# The order of generation

Before anything is generated, the classes of every stage are checked and ordered. A class comes after its superclass
when both belong to one list; otherwise the order of declaration is kept.
-/

namespace EntityForge

/-! ## Taking the first that is ready -/

/-- The first element that `p` accepts, and the list without it. -/
def takeFirst? {α : Type} (p : α → Bool) : List α → Option (α × List α)
  | [] => none
  | a :: rest => if p a then some (a, rest) else (takeFirst? p rest).map fun (b, left) => (b, a :: left)

theorem takeFirst?_eq_some {α : Type} {p : α → Bool} {as left : List α} {a : α}
    (h : takeFirst? p as = some (a, left)) :
    ∃ before after, as = before ++ a :: after ∧ left = before ++ after ∧ p a = true
      ∧ ∀ b ∈ before, p b = false := by
  induction as generalizing left with
  | nil => simp [takeFirst?] at h
  | cons b rest ih =>
    by_cases hb : p b = true
    · simp only [takeFirst?, hb, if_true, Option.some.injEq, Prod.mk.injEq] at h
      obtain ⟨rfl, rfl⟩ := h
      exact ⟨[], rest, rfl, rfl, hb, by simp⟩
    · simp only [takeFirst?, hb, Bool.false_eq_true, if_false, Option.map_eq_some_iff, Prod.mk.injEq,
        Prod.exists] at h
      obtain ⟨c, found, hrest, rfl, rfl⟩ := h
      obtain ⟨before, after, rfl, rfl, hp, hall⟩ := ih hrest
      refine ⟨b :: before, after, rfl, rfl, hp, ?_⟩
      simpa [hb] using hall

/-- Nothing is taken exactly when nothing is accepted. -/
theorem takeFirst?_eq_none_iff {α : Type} {p : α → Bool} {as : List α} :
    takeFirst? p as = none ↔ ∀ a ∈ as, p a = false := by
  induction as with
  | nil => simp [takeFirst?]
  | cons a rest ih => by_cases ha : p a = true <;> simp [takeFirst?, ha, ih]

theorem length_of_takeFirst? {α : Type} {p : α → Bool} {as left : List α} {a : α}
    (h : takeFirst? p as = some (a, left)) : left.length < as.length := by
  obtain ⟨before, after, rfl, rfl, -, -⟩ := takeFirst?_eq_some h
  simp

/-! ## Ordering a list of classes -/

/-- A class that is to be placed, and the name of the class that has to be placed before it. -/
structure Candidate where
  subject : ClassModel
  parent : Option String

namespace Candidate

/-- The candidate of a class within a list. Its superclass counts only if the list has a class of that name. -/
def ofClass (model : Metamodel) (classes : List ClassModel) (c : ClassModel) :
    Except LookupError Candidate := do
  let parent ← model.superclassOf c
  -- A superclass that is not in the list is nothing to wait for.
  let listed := parent.filter fun p => classes.any (·.name == p.name)
  pure { subject := c, parent := listed.map (·.name) }

/-- Whether the candidate may be placed after the classes that are placed already. -/
def isReady (placed : List ClassModel) (candidate : Candidate) : Bool :=
  match candidate.parent with
  | none => true
  | some name => placed.any (·.name == name)

/-- Places the first candidate that is ready, again and again: the classes in the order of placing, and the
candidates that are left when none is ready. -/
def arrange (placed : List ClassModel) (waiting : List Candidate) : List ClassModel × List Candidate :=
  match _h : takeFirst? (isReady placed) waiting with
  | none => (placed, waiting)
  | some (next, left) => arrange (placed ++ [next.subject]) left
termination_by waiting.length
decreasing_by exact length_of_takeFirst? ‹_›

end Candidate

/-- The classes, each after its superclass when that is one of them, and otherwise in their own order. Classes that
can never be placed are an error. -/
def orderClasses (model : Metamodel) (stage : Stage) (classes : List ClassModel) :
    Except GenerationError (List ClassModel) := do
  let candidates ← (classes.mapM (Candidate.ofClass model classes)).mapError .unresolved
  match Candidate.arrange [] candidates with
  | (ordered, []) => .ok ordered
  | (_, stuck) => .error (.cyclicHierarchy stage (stuck.map (·.subject.name)))

/-! ## Planning a run -/

/-- The error of a stage for a class whose superclasses cannot be followed to their end. -/
def GenerationError.ofHierarchy (stage : Stage) : LookupError → GenerationError
  | .cyclicHierarchy className => .cyclicHierarchy stage [className]
  | error => .unresolved error

/-- Accepts classes whose superclasses can all be followed to their end. -/
def checkHierarchy (model : Metamodel) (stage : Stage) (classes : List ClassModel) :
    Except GenerationError Unit :=
  classes.forM fun c => do
    let _ ← (model.ancestors c).mapError (.ofHierarchy stage)

/-- A stage and its classes in the order of generation. -/
structure StagePlan where
  stage : Stage
  classes : List ClassModel

namespace StagePlan

/-- The plan of a stage, if the hierarchy of its classes allows one. -/
def ofStage (model : Metamodel) (stage : Stage) : Except GenerationError StagePlan := do
  let classes := stage.classes model
  checkHierarchy model stage classes
  let ordered ← orderClasses model stage classes
  pure { stage, classes := ordered }

end StagePlan

/-- The plans of all stages, in the order of the stages. -/
def Metamodel.plan (model : Metamodel) : Except GenerationError (List StagePlan) :=
  (Spelled.values : List Stage).mapM (StagePlan.ofStage model)

end EntityForge
