/-!
# Sorted sets and tables of texts

Texts are ordered by the code points of their characters. A sorted set holds each text once; a sorted table
holds one value per text, the one put last.
-/

namespace EntityForge.Text

/-- The set with `s` in it. -/
def insertSorted (s : String) : List String → List String
  | [] => [s]
  | t :: rest =>
    if s < t then s :: t :: rest
    else if s = t then t :: rest
    else t :: insertSorted s rest

/-- The texts of a list, each once and in ascending order. -/
def sortedSet (texts : List String) : List String :=
  texts.foldr insertSorted []

/-- The table with `value` under `key`, in place of any value it had there. -/
def putSorted {α : Type} (key : String) (value : α) : List (String × α) → List (String × α)
  | [] => [(key, value)]
  | entry :: rest =>
    if key < entry.1 then (key, value) :: entry :: rest
    else if key = entry.1 then (key, value) :: rest
    else entry :: putSorted key value rest

theorem mem_insertSorted {s t : String} {set : List String} :
    t ∈ insertSorted s set ↔ t = s ∨ t ∈ set := by
  induction set with
  | nil => simp [insertSorted]
  | cons u rest ih =>
    simp only [insertSorted]
    split
    · simp
    · split
      · next h => subst h; simp
      · simp [ih, or_left_comm]

/-- Sorting keeps exactly the texts of the list. -/
theorem mem_sortedSet {t : String} {texts : List String} : t ∈ sortedSet texts ↔ t ∈ texts := by
  induction texts with
  | nil => simp [sortedSet]
  | cons s rest ih =>
    have hfold : sortedSet (s :: rest) = insertSorted s (sortedSet rest) := rfl
    rw [hfold, mem_insertSorted, ih, List.mem_cons]

/-- Of two texts, one comes first or they are the same. -/
theorem lt_or_eq_or_lt (s t : String) : s < t ∨ s = t ∨ t < s := by
  by_cases hlt : s < t
  · exact Or.inl hlt
  · by_cases hgt : t < s
    · exact Or.inr (Or.inr hgt)
    · exact Or.inr (Or.inl (String.le_antisymm (String.not_lt.mp hgt) (String.not_lt.mp hlt)))

/-- A text is put where it belongs. -/
theorem pairwise_insertSorted {s : String} {set : List String} (h : set.Pairwise (· < ·)) :
    (insertSorted s set).Pairwise (· < ·) := by
  induction set with
  | nil => exact List.pairwise_singleton _ s
  | cons t rest ih =>
    have hrest := List.pairwise_cons.mp h
    rcases lt_or_eq_or_lt s t with hlt | rfl | hgt
    · rw [insertSorted, if_pos hlt, List.pairwise_cons]
      refine ⟨fun u hu => ?_, h⟩
      rcases List.mem_cons.mp hu with rfl | hu
      · exact hlt
      · exact String.lt_trans hlt (hrest.1 u hu)
    · rw [insertSorted, if_neg (String.lt_irrefl s), if_pos rfl]
      exact h
    · have hne : s ≠ t := by
        rintro rfl
        exact String.lt_irrefl s hgt
      rw [insertSorted, if_neg (String.lt_asymm hgt), if_neg hne, List.pairwise_cons]
      refine ⟨fun u hu => ?_, ih hrest.2⟩
      rcases mem_insertSorted.mp hu with rfl | hu
      · exact hgt
      · exact hrest.1 u hu

/-- A sorted set is in ascending order, each text once. -/
theorem pairwise_sortedSet (texts : List String) : (sortedSet texts).Pairwise (· < ·) := by
  induction texts with
  | nil => exact List.Pairwise.nil
  | cons s rest ih => exact pairwise_insertSorted ih

/-- What was put under a key is found there. -/
theorem lookup_putSorted_self {α : Type} {key : String} {value : α} {table : List (String × α)} :
    (putSorted key value table).lookup key = some value := by
  induction table with
  | nil => simp [putSorted]
  | cons entry rest ih =>
    obtain ⟨k, v⟩ := entry
    simp only [putSorted]
    split
    · simp
    · split
      · simp
      · next h =>
        have hb : (key == k) = false := by simpa using h
        rw [List.lookup_cons, hb, ih]

/-- Putting a value leaves what other keys hold. -/
theorem lookup_putSorted_of_ne {α : Type} {key other : String} {value : α} {table : List (String × α)}
    (h : other ≠ key) : (putSorted key value table).lookup other = table.lookup other := by
  have hb : (other == key) = false := by simpa using h
  induction table with
  | nil => simp [putSorted, List.lookup_cons, hb]
  | cons entry rest ih =>
    obtain ⟨k, v⟩ := entry
    simp only [putSorted]
    split
    · rw [List.lookup_cons, hb]
    · split
      · next he =>
        change key = k at he
        subst he
        rw [List.lookup_cons, List.lookup_cons, hb]
      · rw [List.lookup_cons, List.lookup_cons, ih]

section Cons

variable {α : Type} {key k : String} {value v : α} {rest : List (String × α)}

theorem putSorted_cons_of_lt (h : key < k) :
    putSorted key value ((k, v) :: rest) = (key, value) :: (k, v) :: rest := by
  rw [putSorted, if_pos h]

theorem putSorted_cons_self : putSorted key value ((key, v) :: rest) = (key, value) :: rest := by
  rw [putSorted, if_neg (String.lt_irrefl key), if_pos rfl]

theorem putSorted_cons_of_gt (h : k < key) :
    putSorted key value ((k, v) :: rest) = (k, v) :: putSorted key value rest := by
  have hne : key ≠ k := by
    rintro rfl
    exact String.lt_irrefl key h
  rw [putSorted, if_neg (String.lt_asymm h), if_neg hne]

end Cons

/-- A value may be put under a later key before or after one is put under an earlier key. -/
theorem putSorted_comm_of_lt {α : Type} {key other : String} (h : key < other)
    (value otherValue : α) (table : List (String × α)) :
    putSorted other otherValue (putSorted key value table)
      = putSorted key value (putSorted other otherValue table) := by
  induction table with
  | nil =>
    show putSorted other otherValue [(key, value)] = putSorted key value [(other, otherValue)]
    rw [putSorted_cons_of_gt h, putSorted_cons_of_lt h, putSorted]
  | cons entry rest ih =>
    obtain ⟨k, v⟩ := entry
    rcases lt_or_eq_or_lt key k with hlt | rfl | hgt
    · rw [putSorted_cons_of_lt hlt, putSorted_cons_of_gt h]
      rcases lt_or_eq_or_lt other k with hother | rfl | hother
      · rw [putSorted_cons_of_lt hother, putSorted_cons_of_lt h]
      · rw [putSorted_cons_self, putSorted_cons_of_lt hlt]
      · rw [putSorted_cons_of_gt hother, putSorted_cons_of_lt hlt]
    · rw [putSorted_cons_self, putSorted_cons_of_gt h, putSorted_cons_of_gt h, putSorted_cons_self]
    · have hother := String.lt_trans hgt h
      rw [putSorted_cons_of_gt hgt, putSorted_cons_of_gt hother, putSorted_cons_of_gt hother,
        putSorted_cons_of_gt hgt, ih]

/-- Values that are put under different keys may be put in either order. -/
theorem putSorted_comm {α : Type} {key other : String} (h : key ≠ other) (value otherValue : α)
    (table : List (String × α)) :
    putSorted other otherValue (putSorted key value table)
      = putSorted key value (putSorted other otherValue table) := by
  rcases lt_or_eq_or_lt key other with hlt | heq | hgt
  · exact putSorted_comm_of_lt hlt value otherValue table
  · exact absurd heq h
  · exact (putSorted_comm_of_lt hgt otherValue value table).symm

end EntityForge.Text
