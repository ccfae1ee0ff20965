import EntityForge.Text.Spelled

/-!
# Kinds of classes and access

What a generated class is to the persistence provider, and who may use a field or constructor.
-/

namespace EntityForge

/-- What a class is to the persistence provider. -/
inductive ClassKind where
  /-- A superclass whose state entities inherit. -/
  | mappedSuperclass
  | entity
  /-- A value stored inside its owner. -/
  | embeddable
  /-- A composite key that the entity refers to by its class. -/
  | idClass
  /-- A composite key stored inside the entity. -/
  | embeddedId
  /-- A class without persistence. -/
  | bean
  deriving DecidableEq

instance : Spelled ClassKind where
  values := [.mappedSuperclass, .entity, .embeddable, .idClass, .embeddedId, .bean]
  spelling
    | .mappedSuperclass => "mapped_superclass"
    | .entity => "entity"
    | .embeddable => "embeddable"
    | .idClass => "id_class"
    | .embeddedId => "embedded_id"
    | .bean => "bean"
  find_spelling := by intro a; cases a <;> decide

namespace ClassKind

/-- Composite keys. Their members are their own fields. -/
def isIdentifier : ClassKind → Bool
  | .idClass | .embeddedId => true
  | _ => false

/-- Kinds whose attributes carry persistence annotations. -/
def isManaged : ClassKind → Bool
  | .idClass | .bean => false
  | _ => true

end ClassKind

/-- Who may use a field or constructor. -/
inductive Access where
  | publicAccess
  | protectedAccess
  | privateAccess
  /-- The classes of the same package, which no keyword says. -/
  | packageAccess
  deriving DecidableEq

instance : Spelled Access where
  values := [.publicAccess, .protectedAccess, .privateAccess, .packageAccess]
  spelling
    | .publicAccess => "public"
    | .protectedAccess => "protected"
    | .privateAccess => "private"
    | .packageAccess => "package"
  find_spelling := by intro a; cases a <;> decide

/-- The keyword and the blank after it, or nothing for package access. -/
def Access.modifier : Access → String
  | .publicAccess => "public "
  | .protectedAccess => "protected "
  | .privateAccess => "private "
  | .packageAccess => ""

end EntityForge
