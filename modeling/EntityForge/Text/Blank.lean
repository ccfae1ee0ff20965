/-!
# Blank text and trimming

Blank characters are those with the property White_Space. `trim` removes them from both ends of a text, and a
text is blank when nothing else is in it.
-/

namespace EntityForge.Text

/-- Characters with the property White_Space. -/
def isSpace (c : Char) : Bool :=
  let n := c.toNat
  (0x09 ≤ n && n ≤ 0x0D) || n == 0x20 || n == 0x85 || n == 0xA0 || n == 0x1680
    || (0x2000 ≤ n && n ≤ 0x200A) || n == 0x2028 || n == 0x2029 || n == 0x202F || n == 0x205F
    || n == 0x3000

/-- The characters without the blank ones at their end. -/
def trimEndChars (cs : List Char) : List Char :=
  (cs.reverse.dropWhile isSpace).reverse

/-- The characters without the blank ones at either end. -/
def trimChars (cs : List Char) : List Char :=
  trimEndChars (cs.dropWhile isSpace)

/-- The text without the blank characters at its end. -/
def trimEnd (s : String) : String :=
  String.ofList (trimEndChars s.toList)

/-- The text without the blank characters at either end. -/
def trim (s : String) : String :=
  String.ofList (trimChars s.toList)

/-- A text is blank when it holds no character other than blank ones. -/
def isBlank (s : String) : Bool :=
  s.toList.all isSpace

/-- The optional text, unless it is absent or blank. -/
def nonBlank? (s : Option String) : Option String :=
  s.filter (!isBlank ·)

/-! ## What trimming leaves -/

/-- A blank end is removed from a longer text. -/
theorem trimEndChars_append_space {cs gap : List Char} (h : gap.all isSpace = true) :
    trimEndChars (cs ++ gap) = trimEndChars cs := by
  have hgap : ∀ c ∈ gap.reverse, isSpace c = true := by simpa using h
  simp [trimEndChars, List.dropWhile_append_of_pos hgap]

/-- A blank start is removed from a longer text. -/
theorem trimChars_space_append {gap cs : List Char} (h : gap.all isSpace = true) :
    trimChars (gap ++ cs) = trimChars cs := by
  have hgap : ∀ c ∈ gap, isSpace c = true := by simpa using h
  simp [trimChars, List.dropWhile_append_of_pos hgap]

/-- Trimming leaves nothing exactly of a blank text. -/
theorem trimChars_eq_nil_iff {cs : List Char} : trimChars cs = [] ↔ cs.all isSpace = true := by
  have hnil : ∀ l : List Char, l.dropWhile isSpace = [] ↔ ∀ c ∈ l, isSpace c = true := by
    intro l
    induction l with
    | nil => simp
    | cons c l ih => by_cases hc : isSpace c = true <;> simp [hc, ih]
  constructor
  · intro h
    rw [trimChars, trimEndChars, List.reverse_eq_nil_iff, hnil] at h
    rw [List.all_eq_true]
    by_cases hd : cs.dropWhile isSpace = []
    · exact (hnil cs).mp hd
    · obtain ⟨c, l, hcl⟩ := List.exists_cons_of_ne_nil hd
      have hc : isSpace c = true := h c (by simp [hcl])
      have := List.head_dropWhile_not isSpace hd
      simp [hcl, hc] at this
  · intro h
    have : cs.dropWhile isSpace = [] := (hnil cs).mpr (by simpa using h)
    simp [trimChars, this, trimEndChars]

end EntityForge.Text
