import EntityForge.Text.Split

/-!
# References to types outside the metamodel
-/

namespace EntityForge

/-- The last part of a possibly qualified type name. -/
def simpleName (qualified : String) : String :=
  Text.afterLast '.' qualified

/-- A name without dots is the last part of any name that ends in it behind a dot. -/
theorem simpleName_append {package name : String} (h : '.' ∉ name.toList) :
    simpleName (package ++ "." ++ name) = name := by
  obtain ⟨-, hbehind⟩ := Text.afterLastChars_of_not_mem h
  rw [simpleName, Text.afterLast, String.toList_append, String.toList_append, List.append_assoc]
  show String.ofList (Text.afterLastChars '.' (package.toList ++ '.' :: name.toList)) = name
  rw [hbehind, String.ofList_toList]

/-- A type outside the metamodel, named in full. A disabled reference is kept but never written. -/
structure TypeRef where
  name : String
  enabled : Bool
  deriving DecidableEq

namespace TypeRef

/-- The enabled reference to a type. -/
def of (name : String) : TypeRef :=
  { name, enabled := true }

/-- The last part of the name. -/
def simpleName (ref : TypeRef) : String :=
  EntityForge.simpleName ref.name

end TypeRef

end EntityForge
