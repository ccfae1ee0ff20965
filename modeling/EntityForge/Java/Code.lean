/-!
# Pieces of code

A piece of generated code is its text and the types, named in full, that its source file has to import.
-/

namespace EntityForge.Java

/-- A text and the types it needs, each once and in the order in which they were asked for. -/
structure Code where
  text : String
  imports : List String
  deriving DecidableEq

namespace Code

/-- The code of a text that needs no type. -/
def ofText (text : String) : Code :=
  { text, imports := [] }

/-- The code with one more type needed. -/
def needing (code : Code) (type : String) : Code :=
  if code.imports.contains type then code else { code with imports := code.imports ++ [type] }

/-- The code with further types needed. -/
def needingAll (code : Code) (types : List String) : Code :=
  types.foldl needing code

@[simp] theorem text_needing (code : Code) (type : String) : (code.needing type).text = code.text := by
  unfold needing
  split <;> rfl

@[simp] theorem text_needingAll (code : Code) (types : List String) :
    (code.needingAll types).text = code.text := by
  induction types generalizing code with
  | nil => rfl
  | cons type types ih =>
    change ((code.needing type).needingAll types).text = code.text
    rw [ih, text_needing]

theorem mem_imports_needing {code : Code} {type other : String} :
    other ∈ (code.needing type).imports ↔ other ∈ code.imports ∨ other = type := by
  unfold needing
  split
  · next h =>
    have hmem : type ∈ code.imports := by simpa using h
    constructor
    · exact Or.inl
    · rintro (h | rfl)
      · exact h
      · exact hmem
  · simp

theorem mem_imports_needingAll {code : Code} {types : List String} {other : String} :
    other ∈ (code.needingAll types).imports ↔ other ∈ code.imports ∨ other ∈ types := by
  induction types generalizing code with
  | nil => simp [needingAll]
  | cons type types ih =>
    change other ∈ ((code.needing type).needingAll types).imports ↔ _
    rw [ih, mem_imports_needing, List.mem_cons, or_assoc]

/-- Which types are needed does not depend on the text. -/
theorem imports_needing_congr {code other : Code} (h : code.imports = other.imports) (type : String) :
    (code.needing type).imports = (other.needing type).imports := by
  rw [needing, needing, h]
  split
  · exact h
  · rfl

theorem imports_needingAll_congr {code other : Code} (h : code.imports = other.imports) (types : List String) :
    (code.needingAll types).imports = (other.needingAll types).imports := by
  induction types generalizing code other with
  | nil => exact h
  | cons type types ih => exact ih (imports_needing_congr h type)

end Code

end EntityForge.Java
