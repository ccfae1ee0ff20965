import EntityForge.Java.Expression
import EntityForge.Proofs.ParameterizedTypes

/-!
# Array types

An array type is an element type with suffixes behind it, one for each dimension. A suffix is a pair of brackets, and
the last one may be three dots; white space may stand before a suffix and between brackets. The shape of a type is read
off its last characters, so it depends on the last two suffixes and on how they are written.

Main statement: `array_shape_iff`, that an array type has the shape of its dimensions exactly when white space and dots
stay away from its last two pairs of brackets, and that nothing else has the shape of an array.
-/

namespace EntityForge.Java

open Text

/-! ## What is written -/

/-- What makes an array type of the type in front of it. -/
inductive ArraySuffix where
  /-- A pair of brackets, with white space before and between them. -/
  | brackets (before between : Gap)
  /-- Three dots, with white space before them. -/
  | dots (before : Gap)

namespace ArraySuffix

/-- The suffix as it is written. -/
def chars : ArraySuffix → List Char
  | .brackets before between => before.1 ++ '[' :: between.1 ++ [']']
  | .dots before => before.1 ++ ['.', '.', '.']

/-- The suffix with more white space before it. -/
def behind (gap : Gap) : ArraySuffix → ArraySuffix
  | .brackets before between => .brackets (joinGaps gap before) between
  | .dots before => .dots (joinGaps gap before)

/-- Whether the suffix is brackets with nothing between them. -/
def isTight : ArraySuffix → Bool
  | .brackets _ between => between.1 = []
  | .dots _ => false

/-- Whether the suffix is brackets with white space between them. -/
def isLoose : ArraySuffix → Bool
  | .brackets _ between => between.1 ≠ []
  | .dots _ => false

theorem chars_behind (gap : Gap) (suffix : ArraySuffix) : (suffix.behind gap).chars = gap.1 ++ suffix.chars := by
  cases suffix <;> simp [chars, behind, joinGaps]

theorem length_chars_pos (suffix : ArraySuffix) : 0 < suffix.chars.length := by
  cases suffix with
  | brackets before between =>
    rw [chars, List.length_append, List.length_cons]
    omega
  | dots before => simp [chars]

end ArraySuffix

/-- The characters end in a suffix of arrays, and white space. -/
def EndsInSuffix (cs : List Char) : Prop :=
  ∃ (front : List Char) (suffix : ArraySuffix) (after : Gap), cs = front ++ suffix.chars ++ after.1

/-- An array type: an element that is not an array itself, the suffixes behind it in their order, and white space at the
end. Java has three dots at the last place only; here they may stand at any. -/
structure ArrayType where
  element : List Char
  inner : List ArraySuffix
  last : ArraySuffix
  after : Gap
  element_plain : ¬EndsInSuffix element

namespace ArrayType

/-- The number of dimensions. -/
def depth (t : ArrayType) : Nat :=
  t.inner.length + 1

/-- The type without its last suffix. -/
def front (t : ArrayType) : List Char :=
  t.element ++ t.inner.flatMap (·.chars)

/-- The type as it is written. -/
def text (t : ArrayType) : String :=
  String.ofList (t.front ++ t.last.chars ++ t.after.1)

/-- Whether no white space stands between the last brackets and, of two dimensions or more, the last two are written by
tight brackets. -/
def isCompact (t : ArrayType) : Bool :=
  !t.last.isLoose && t.inner.getLast?.all fun suffix => suffix.isTight && t.last.isTight

end ArrayType

/-! ## Reading from the end -/

/-- White space at the end is removed by trimming. -/
theorem trimChars_append_gap {gap : List Char} (h : IsGap gap) (cs : List Char) :
    trimChars (cs ++ gap) = trimChars cs := by
  by_cases hblank : cs.all isSpace = true
  · have hall : (cs ++ gap).all isSpace = true := by
      rw [List.all_append, hblank, List.all_eq_true.mpr h]
      rfl
    rw [trimChars_eq_nil_iff.mpr hall, trimChars_eq_nil_iff.mpr hblank]
  · have hkept : cs.dropWhile isSpace ≠ [] := by
      rw [Ne, List.dropWhile_eq_nil_iff]
      simpa using hblank
    rw [trimChars, List.dropWhile_append, if_neg (by simpa using hkept),
      trimEndChars_append_space (List.all_eq_true.mpr h), trimChars]

/-- White space that is dropped in front stops before any other character. -/
theorem dropWhile_append_cons {c : Char} (hc : isSpace c = false) (front rest : List Char) :
    (front ++ c :: rest).dropWhile isSpace = front.dropWhile isSpace ++ c :: rest := by
  rw [List.dropWhile_append]
  split
  · next hnil => simp [hc, List.isEmpty_iff.mp hnil]
  · rfl

/-- Read from its end, a trimmed text begins with the last character that is not white space. -/
theorem reverse_trimChars {c : Char} (hc : isSpace c = false) (front : List Char) {after : List Char}
    (h : IsGap after) : (trimChars (front ++ c :: after)).reverse = c :: (front.dropWhile isSpace).reverse := by
  rw [List.append_cons, trimChars_append_gap h, trimChars, dropWhile_append_cons hc, trimEndChars]
  simp [hc]

namespace ArraySuffix

/-- What a suffix looks like from the end of a type. -/
theorem reverse_trimChars_append (suffix : ArraySuffix) (front : List Char) (after : Gap) :
    (trimChars (front ++ suffix.chars ++ after.1)).reverse
      = match suffix with
        | .brackets before between =>
          ']' :: (between.1.reverse ++ '[' :: ((front ++ before.1).dropWhile isSpace).reverse)
        | .dots before => '.' :: '.' :: '.' :: ((front ++ before.1).dropWhile isSpace).reverse := by
  cases suffix with
  | brackets before between =>
    have hwhole : front ++ (brackets before between).chars ++ after.1
        = (front ++ before.1 ++ '[' :: between.1) ++ ']' :: after.1 := by
      simp [chars]
    rw [hwhole, reverse_trimChars (by decide) _ after.2, dropWhile_append_cons (by decide)]
    simp
  | dots before =>
    have hwhole : front ++ (dots before).chars ++ after.1 = (front ++ before.1 ++ '.' :: ['.']) ++ '.' :: after.1 := by
      simp [chars]
    rw [hwhole, reverse_trimChars (by decide) _ after.2, dropWhile_append_cons (by decide)]
    simp

end ArraySuffix

/-- What looks from its end like a suffix with nothing in it ends in that suffix. -/
theorem endsInSuffix_of_reverse {mark : List Char} {cs rest : List Char}
    (hmark : mark = [']', '['] ∨ mark = ['.', '.', '.']) (h : (trimChars cs).reverse = mark ++ rest) :
    EndsInSuffix cs := by
  obtain ⟨before, after, hcs, -, hafter⟩ := exists_gaps_trimChars cs
  have htrimmed : trimChars cs = rest.reverse ++ mark.reverse := by
    rw [← List.reverse_append, ← h, List.reverse_reverse]
  rw [htrimmed] at hcs
  rcases hmark with rfl | rfl
  · exact ⟨before ++ rest.reverse, .brackets noGap noGap, ⟨after, hafter⟩,
      by simpa [ArraySuffix.chars, noGap] using hcs⟩
  · exact ⟨before ++ rest.reverse, .dots noGap, ⟨after, hafter⟩, by simpa [ArraySuffix.chars, noGap] using hcs⟩

/-- What ends in another character than a suffix does is not an array. -/
theorem not_endsInSuffix_of_reverse {cs rest : List Char} {c : Char} (h : (trimChars cs).reverse = c :: rest)
    (hc : c ≠ ']' ∧ c ≠ '.') : ¬EndsInSuffix cs := by
  rintro ⟨front, suffix, after, rfl⟩
  rw [suffix.reverse_trimChars_append] at h
  cases suffix with
  | brackets before between => exact hc.1 (List.cons.inj h).1.symm
  | dots before => exact hc.2 (List.cons.inj h).1.symm

/-! ## Shapes -/

namespace Shape

/-- A name has not the shape of an array. -/
theorem ofName_ne_array (name : String) (nested : Bool) : ofName name ≠ .array nested := by
  unfold ofName
  split <;> simp

/-- What ends in a bracket is not the name of a primitive type. -/
theorem ofName_of_getLast? {name : String} (h : name.toList.getLast? = some ']') : ofName name = .object := by
  unfold ofName
  split <;> first | rfl | exact absurd h (by decide)

/-- White space that is not empty ends in no bracket. -/
theorem exists_reverse_eq_cons {between : Gap} (h : between.1 ≠ []) :
    ∃ d others, between.1.reverse = d :: others ∧ d ≠ '[' := by
  obtain ⟨d, others, hd⟩ := List.exists_cons_of_ne_nil (mt List.reverse_eq_nil_iff.mp h)
  refine ⟨d, others, hd, ?_⟩
  rintro rfl
  have hmem : '[' ∈ between.1 := List.mem_reverse.mp (hd ▸ List.mem_cons_self)
  exact absurd (between.2 '[' hmem) (by decide)

/-- The shape of a type with a suffix behind it. -/
theorem ofChars_append (front : List Char) (suffix : ArraySuffix) (after : Gap) :
    ofChars (front ++ suffix.chars ++ after.1)
      = match suffix with
        | .brackets _ between =>
          if between.1 = [] then .array (endsInBrackets (trimChars front).reverse) else .object
        | .dots _ => .array false := by
  have hreverse := suffix.reverse_trimChars_append front after
  cases suffix with
  | brackets before between =>
    by_cases hbetween : between.1 = []
    · have hfront : ((front ++ before.1).dropWhile isSpace).reverse.dropWhile isSpace = (trimChars front).reverse := by
        rw [← trimChars_append_gap before.2 front, trimChars, trimEndChars, List.reverse_reverse]
      simp only [hbetween, List.reverse_nil, List.nil_append] at hreverse
      simp only [ofChars, hreverse, hfront, hbetween, if_true]
    -- White space stands before the last bracket, so the type is taken for a name.
    · obtain ⟨d, others, hd, hne⟩ := exists_reverse_eq_cons hbetween
      simp only [hd, List.cons_append] at hreverse
      generalize front ++ (ArraySuffix.brackets before between).chars ++ after.1 = cs at hreverse ⊢
      have hlast : (String.ofList (trimChars cs)).toList.getLast? = some ']' := by
        rw [String.toList_ofList, ← List.head?_reverse, hreverse]
        rfl
      simp [ofChars, hreverse, hne, hbetween, ofName_of_getLast? hlast]
  | dots before =>
    simp only [ofChars, hreverse]

/-- The characters end in brackets exactly when the suffix at their end is a tight pair. -/
theorem endsInBrackets_append (front : List Char) (suffix : ArraySuffix) :
    endsInBrackets (trimChars (front ++ suffix.chars)).reverse = suffix.isTight := by
  have hreverse := suffix.reverse_trimChars_append front noGap
  rw [noGap, List.append_nil] at hreverse
  rw [hreverse]
  cases suffix with
  | brackets before between =>
    by_cases hbetween : between.1 = []
    · simp [endsInBrackets, ArraySuffix.isTight, hbetween]
    · obtain ⟨d, others, hd, hne⟩ := exists_reverse_eq_cons hbetween
      simp [endsInBrackets, ArraySuffix.isTight, hbetween, hd, hne]
  | dots before => rfl

/-- What is not an array does not end in brackets. -/
theorem endsInBrackets_of_not_endsInSuffix {cs : List Char} (h : ¬EndsInSuffix cs) :
    endsInBrackets (trimChars cs).reverse = false := by
  unfold endsInBrackets
  split
  · next rest hreverse => exact absurd (endsInSuffix_of_reverse (.inl rfl) hreverse) h
  · rfl

/-- Only what ends in a suffix has the shape of an array. -/
theorem endsInSuffix_of_ofChars_eq_array {cs : List Char} {nested : Bool} (h : ofChars cs = .array nested) :
    EndsInSuffix cs := by
  rw [ofChars] at h
  split at h
  · next hreverse => exact endsInSuffix_of_reverse (.inl rfl) hreverse
  · next hreverse => exact endsInSuffix_of_reverse (.inr rfl) hreverse
  · exact absurd h (ofName_ne_array _ nested)

end Shape

/-! ## Types and their suffixes -/

/-- Whatever ends in a suffix is an array type: it has a first suffix, and what stands before that is its element. -/
theorem exists_arrayType {type : String} (h : EndsInSuffix type.toList) : ∃ t : ArrayType, t.text = type := by
  suffices hchars : ∀ (n : Nat) (cs : List Char), cs.length ≤ n → EndsInSuffix cs →
      ∃ t : ArrayType, t.front ++ t.last.chars ++ t.after.1 = cs by
    obtain ⟨t, ht⟩ := hchars _ type.toList le_rfl h
    exact ⟨t, by rw [ArrayType.text, ht, String.ofList_toList]⟩
  intro n
  induction n with
  | zero =>
    rintro cs hlength ⟨front, suffix, after, rfl⟩
    have := suffix.length_chars_pos
    simp only [List.length_append] at hlength
    omega
  | succ n ih =>
    rintro cs hlength ⟨front, suffix, after, rfl⟩
    by_cases hfront : EndsInSuffix front
    · have hshorter : front.length ≤ n := by
        have := suffix.length_chars_pos
        simp only [List.length_append] at hlength
        omega
      obtain ⟨t, rfl⟩ := ih front hshorter hfront
      refine ⟨⟨t.element, t.inner ++ [t.last], suffix.behind t.after, after, t.element_plain⟩, ?_⟩
      simp [ArrayType.front, ArraySuffix.chars_behind]
    · exact ⟨⟨front, [], suffix, after, hfront⟩, by simp [ArrayType.front]⟩

namespace ArrayType

/-- The front of an array type ends in brackets exactly when the suffix before the last one is a tight pair. -/
theorem endsInBrackets_front (t : ArrayType) :
    Shape.endsInBrackets (trimChars t.front).reverse = t.inner.getLast?.any (·.isTight) := by
  rcases List.eq_nil_or_concat t.inner with hinner | ⟨others, suffix, hinner⟩
  · simp [front, hinner, Shape.endsInBrackets_of_not_endsInSuffix t.element_plain]
  · have hfront : t.front = (t.element ++ others.flatMap (·.chars)) ++ suffix.chars := by
      simp [front, hinner]
    rw [hfront, Shape.endsInBrackets_append, hinner]
    simp

/-- The shape of an array type: that of an array unless white space stands between its last brackets, and a nested one
when the last two suffixes are tight brackets. -/
theorem ofType_text (t : ArrayType) :
    Shape.ofType t.text
      = if t.last.isLoose then .object else .array (t.last.isTight && t.inner.getLast?.any (·.isTight)) := by
  rw [Shape.ofType, text, String.toList_ofList, Shape.ofChars_append, endsInBrackets_front]
  cases t.last with
  | brackets before between =>
    by_cases hbetween : between.1 = [] <;> simp [ArraySuffix.isLoose, ArraySuffix.isTight, hbetween]
  | dots before => simp [ArraySuffix.isLoose, ArraySuffix.isTight]

/-- The shape tells one dimension from more exactly when the type is compact. -/
theorem ofType_text_eq_iff (t : ArrayType) :
    Shape.ofType t.text = .array (decide (2 ≤ t.depth)) ↔ t.isCompact = true := by
  rw [ofType_text, isCompact, depth]
  rcases List.eq_nil_or_concat t.inner with hinner | ⟨others, suffix, hinner⟩
  · cases hloose : t.last.isLoose <;> simp [hinner]
  · cases hloose : t.last.isLoose <;> simp [hinner, and_comm]

/-- Only compact types of two dimensions or more have the shape of nested arrays. -/
theorem ofType_text_eq_nested_iff (t : ArrayType) :
    Shape.ofType t.text = .array true ↔ 2 ≤ t.depth ∧ t.isCompact = true := by
  rw [← ofType_text_eq_iff]
  by_cases hdepth : 2 ≤ t.depth
  · simp [hdepth]
  · have hinner : t.inner = [] := List.eq_nil_of_length_eq_zero (by rw [depth] at hdepth; omega)
    cases hloose : t.last.isLoose <;> simp [ofType_text, hinner, hdepth, hloose]

end ArrayType

/-! ## Comparing and hashing -/

namespace Shape

/-- A field of the shape is written to be compared and hashed by its elements, and these by theirs. -/
def ComparesDeeply (shape : Shape) (field : String) : Prop :=
  (shape.differs field).text = "!java.util.Arrays.deepEquals(this." ++ field ++ ", other." ++ field ++ ")"
    ∧ (shape.hashTerm field).text = "java.util.Arrays.deepHashCode(this." ++ field ++ ")"

/-- Texts that begin differently differ, whatever is written behind. -/
theorem ne_of_take_ne {written meant : String} (n : Nat) (h : written.toList.take n ≠ meant.toList.take n) :
    written ≠ meant := by
  rintro rfl
  exact h rfl

/-- Fields are compared deeply exactly when they have the shape of nested arrays: no other method than the deep one is
written where that one is expected. -/
theorem comparesDeeply_iff (shape : Shape) (field : String) : shape.ComparesDeeply field ↔ shape = .array true := by
  constructor
  · rintro ⟨hdiffers, -⟩
    cases shape with
    | primitive type => exact absurd hdiffers (ne_of_take_ne 1 (by simp [differs, Expression.text, Expression.this]))
    | floating type =>
      refine absurd hdiffers (ne_of_take_ne 1 ?_)
      cases type <;> simp [differs, Expression.text, Floating.bitsMethod]
    | array nested =>
      cases nested with
      | true => rfl
      | false => exact absurd hdiffers (ne_of_take_ne 19 (by simp [differs, Expression.text, equalsMethod]))
    | object => exact absurd hdiffers (ne_of_take_ne 12 (by simp [differs, Expression.text, equalsMethod]))
  · rintro rfl
    refine ⟨?_, ?_⟩ <;>
      simp [differs, hashTerm, Expression.text, Expression.this, Expression.other, equalsMethod, hashMethod,
        ← String.toList_inj]

end Shape

/-- **The shape of array types.** An array type has the shape of an array, nested when it has two dimensions or more,
exactly when it is compact; and then, with two dimensions or more, its fields are compared and hashed deeply, as no
others are. The types with the shape of an array are the array types that end in dots or tight brackets. -/
theorem array_shape_iff (t : ArrayType) (type field : String) :
    (Shape.ofType t.text = .array (decide (2 ≤ t.depth)) ↔ t.isCompact = true)
      ∧ ((Shape.ofType t.text).ComparesDeeply field ↔ 2 ≤ t.depth ∧ t.isCompact = true)
      ∧ ((∃ nested, Shape.ofType type = .array nested)
        ↔ ∃ written : ArrayType, written.text = type ∧ written.last.isLoose = false) := by
  refine ⟨t.ofType_text_eq_iff, ?_, ?_, ?_⟩
  · rw [Shape.comparesDeeply_iff, t.ofType_text_eq_nested_iff]
  · rintro ⟨nested, hshape⟩
    obtain ⟨written, rfl⟩ := exists_arrayType (Shape.endsInSuffix_of_ofChars_eq_array hshape)
    refine ⟨written, rfl, ?_⟩
    by_contra hloose
    rw [written.ofType_text, if_pos (by simpa using hloose)] at hshape
    exact absurd hshape (by simp)
  · rintro ⟨written, rfl, htight⟩
    exact ⟨_, by rw [written.ofType_text, htight]; rfl⟩

example : Shape.ofType " String [] []" = .array true ∧ Shape.ofType "String[]..." = .array false := by
  decide

/-- A matrix of numbers, with a blank between the first brackets. -/
def spacedMatrix : ArrayType where
  element := "int".toList
  inner := [.brackets noGap ⟨[' '], List.forall_mem_singleton.mpr (by decide)⟩]
  last := .brackets noGap noGap
  after := noGap
  element_plain := by
    have hreverse : (trimChars "int".toList).reverse = 't' :: ['n', 'i'] := by decide
    exact not_endsInSuffix_of_reverse hreverse (by decide)

/-- White space between the brackets of its first dimension hides that a matrix is nested: its rows are not compared. -/
theorem array_shape_spacedMatrix :
    spacedMatrix.text = "int[ ][]" ∧ spacedMatrix.depth = 2 ∧ Shape.ofType spacedMatrix.text = .array false
      ∧ ¬(Shape.ofType spacedMatrix.text).ComparesDeeply "cells" := by
  have hshape : Shape.ofType spacedMatrix.text = .array false := by
    rw [ArrayType.ofType_text]
    decide
  refine ⟨by decide, rfl, hshape, ?_⟩
  rw [Shape.comparesDeeply_iff, hshape]
  decide

end EntityForge.Java
