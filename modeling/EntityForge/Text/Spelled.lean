/-!
# Values named by words

A type of finitely many values, each written as a word of its own.
-/

namespace EntityForge

/-- Finitely many values, each spelled by a word that no other value has. -/
class Spelled (α : Type) where
  values : List α
  spelling : α → String
  find_spelling : ∀ a, values.find? (fun b => spelling b == spelling a) = some a

namespace Spelled

variable {α : Type} [Spelled α]

/-- The value spelled by a word. -/
def ofWord? (word : String) : Option α :=
  values.find? fun a => spelling a == word

/-- A word read back is the value that it spells. -/
theorem ofWord?_spelling (a : α) : ofWord? (spelling a) = some a :=
  find_spelling a

/-- Every value is listed. -/
theorem mem_values (a : α) : a ∈ (values : List α) :=
  List.mem_of_find?_eq_some (find_spelling a)

end Spelled

end EntityForge
