import EntityForge.Metamodel.Basic

/-!
# The class hierarchy

Classes name their superclass, and constructors and methods name attributes. A class name stands for the first
class that bears it; an attribute name stands for the attribute of the class itself or else of its nearest
ancestor that has one.
-/

namespace EntityForge

/-- Why a name does not lead anywhere. -/
inductive LookupError where
  /-- The superclass of a class is not in the metamodel. -/
  | unknownClass (name referencedBy : String)
  /-- Neither the class nor an ancestor has the attribute. -/
  | unknownAttribute (className name : String)
  /-- The superclasses of a class come round to a name again. -/
  | cyclicHierarchy (className : String)
  deriving DecidableEq

/-- The text of a lookup error. -/
def LookupError.message : LookupError → String
  | .unknownClass name referencedBy => s!"class '{referencedBy}' extends unknown class '{name}'"
  | .unknownAttribute className name => s!"attribute '{name}' is not visible from class '{className}'"
  | .cyclicHierarchy className => s!"superclass chain of '{className}' is cyclic"

/-- An attribute and the class that declares it. -/
structure Resolved where
  declared : Attribute
  owner : ClassModel

/-- Whether the attribute is declared by a class of this name. -/
def Resolved.isOwnedBy (r : Resolved) (c : ClassModel) : Bool :=
  r.owner.name == c.name

namespace Metamodel

/-- The superclass of a class within the metamodel, if it names one. -/
def superclassOf (model : Metamodel) (c : ClassModel) : Except LookupError (Option ClassModel) :=
  match c.superclass with
  | none => .ok none
  | some name =>
    match model.class? name with
    | some parent => .ok (some parent)
    | none => .error (.unknownClass name c.name)

/-- The classes that do not bear a name. -/
def withoutName (name : String) (classes : List ClassModel) : List ClassModel :=
  classes.filter (·.name != name)

theorem length_withoutName_lt {name : String} {classes : List ClassModel} {c : ClassModel}
    (h : classes.find? (·.name == name) = some c) : (withoutName name classes).length < classes.length := by
  refine List.length_filter_lt_length_iff_exists.mpr ⟨c, List.mem_of_find?_eq_some h, ?_⟩
  have := List.find?_some h
  simpa using this

/-- The superclasses of `current`, nearest first, where `start` is the class that the walk set out from and
`unseen` are the classes whose names have not come up on it. Each step takes a name out of `unseen`, so the walk
ends; a name that the metamodel has but `unseen` has not is a name that came up before. -/
def ancestorsAmong (model : Metamodel) (start : String) (unseen : List ClassModel) (current : ClassModel) :
    Except LookupError (List ClassModel) :=
  match current.superclass with
  | none => .ok []
  | some name =>
    match _h : unseen.find? (·.name == name) with
    | some parent => do
      let rest ← ancestorsAmong model start (withoutName name unseen) parent
      pure (parent :: rest)
    | none =>
      match model.class? name with
      | some _ => .error (.cyclicHierarchy start)
      | none => .error (.unknownClass name current.name)
termination_by unseen.length
decreasing_by exact length_withoutName_lt ‹_›

/-- All superclasses of a class within the metamodel, nearest first. -/
def ancestors (model : Metamodel) (c : ClassModel) : Except LookupError (List ClassModel) :=
  model.ancestorsAmong c.name (withoutName c.name model.classes) c

/-- The attribute of a name in the first of the classes that has one. -/
def findAttribute? (name : String) : List ClassModel → Option Resolved
  | [] => none
  | c :: rest =>
    match c.attribute? name with
    | some declared => some { declared, owner := c }
    | none => findAttribute? name rest

/-- The attribute that a name stands for in a class. -/
def resolve (model : Metamodel) (c : ClassModel) (name : String) : Except LookupError Resolved :=
  match c.attribute? name with
  | some declared => .ok { declared, owner := c }
  | none => do
    let ancestors ← model.ancestors c
    match findAttribute? name ancestors with
    | some resolved => .ok resolved
    | none => .error (.unknownAttribute c.name name)

end Metamodel

end EntityForge
