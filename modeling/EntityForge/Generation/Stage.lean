import EntityForge.Metamodel.Basic

/-!
# Stages of generation

Classes are generated stage by stage, each stage taking the classes of some kinds.
-/

namespace EntityForge

/-- A step of generation, in the order in which the steps are taken. -/
inductive Stage where
  | superclasses
  | entities
  | embeddables
  | identifiers
  | beans
  deriving DecidableEq

instance : Spelled Stage where
  values := [.superclasses, .entities, .embeddables, .identifiers, .beans]
  spelling
    | .superclasses => "superclasses"
    | .entities => "entities"
    | .embeddables => "embeddables"
    | .identifiers => "identifiers"
    | .beans => "beans"
  find_spelling := by intro a; cases a <;> decide

namespace Stage

/-- The kinds of a stage, in the order in which their classes are taken. -/
def kinds : Stage → List ClassKind
  | .superclasses => [.mappedSuperclass]
  | .entities => [.entity]
  | .embeddables => [.embeddable]
  | .identifiers => [.idClass, .embeddedId]
  | .beans => [.bean]

/-- The stage that takes the classes of a kind. -/
def ofKind : ClassKind → Stage
  | .mappedSuperclass => .superclasses
  | .entity => .entities
  | .embeddable => .embeddables
  | .idClass | .embeddedId => .identifiers
  | .bean => .beans

/-- Each kind belongs to one stage. -/
theorem mem_kinds_iff {stage : Stage} {kind : ClassKind} : kind ∈ stage.kinds ↔ ofKind kind = stage := by
  cases stage <;> cases kind <;> simp [kinds, ofKind]

/-- The classes of a stage that are generated, kind by kind, each kind in the order of declaration. -/
def classes (stage : Stage) (model : Metamodel) : List ClassModel :=
  (stage.kinds.flatMap model.classesOf).filter (·.generateSource)

end Stage

end EntityForge
