import EntityForge.Java.TypeText
import Mathlib.Data.List.Basic

/-!
# Tokens of types

The words and marks of a type as it is written. White space beside an angle bracket, a comma or an end of the text says
nothing, and neither does more white space where there is some; `typeTokens` forgets it, and only it.

Main statement: `typeTokens_of_typeArguments?_eq_some`, that a parameterized type is its raw type, its arguments and
what stands behind the last angle bracket.
-/

namespace EntityForge.Java

open Text

/-! ## Tokens -/

/-- The marks of a type. Points, brackets and the other signs belong to its words. -/
def isTypeMark (c : Char) : Bool :=
  c == '<' || c == '>' || c == ','

/-- The word that ends, if one has begun. -/
def endedWord (word : List Char) : List (List Char) :=
  if word = [] then [] else [word]

/-- The tokens of the characters, behind the beginning of a word. -/
def typeTokensFrom (word : List Char) : List Char → List (List Char)
  | [] => endedWord word
  | c :: rest =>
    if isSpace c then endedWord word ++ typeTokensFrom [] rest
    else if isTypeMark c then endedWord word ++ [c] :: typeTokensFrom [] rest
    else typeTokensFrom (word ++ [c]) rest

/-- The tokens of a type. -/
def typeTokens (cs : List Char) : List (List Char) :=
  typeTokensFrom [] cs

theorem isSpace_of_isTypeMark {c : Char} (h : isTypeMark c = true) : isSpace c = false := by
  simp only [isTypeMark, Bool.or_eq_true, beq_iff_eq] at h
  rcases h with (rfl | rfl) | rfl <;> decide

/-- A mark is a token, and ends the word before it. -/
theorem typeTokensFrom_mark {mark : Char} (h : isTypeMark mark = true) (word cs rest : List Char) :
    typeTokensFrom word (cs ++ mark :: rest) = typeTokensFrom word cs ++ [mark] :: typeTokens rest := by
  induction cs generalizing word with
  | nil => simp [typeTokensFrom, typeTokens, isSpace_of_isTypeMark h, h]
  | cons c cs ih =>
    rw [List.cons_append, typeTokensFrom, typeTokensFrom, ih, ih]
    by_cases hspace : isSpace c = true
    · simp [hspace]
    · by_cases hmark : isTypeMark c = true <;> simp [hspace, hmark]

theorem typeTokens_mark {mark : Char} (h : isTypeMark mark = true) (cs rest : List Char) :
    typeTokens (cs ++ mark :: rest) = typeTokens cs ++ [mark] :: typeTokens rest :=
  typeTokensFrom_mark h [] cs rest

/-- White space in front says nothing. -/
theorem typeTokens_spaces_append {gap : List Char} (h : ∀ c ∈ gap, isSpace c = true) (cs : List Char) :
    typeTokens (gap ++ cs) = typeTokens cs := by
  induction gap with
  | nil => rfl
  | cons c gap ih =>
    obtain ⟨hc, hgap⟩ := List.forall_mem_cons.mp h
    rw [List.cons_append, typeTokens, typeTokensFrom, if_pos hc]
    exact ih hgap

theorem typeTokens_blank_cons (cs : List Char) : typeTokens (' ' :: cs) = typeTokens cs := by
  have hblank : ∀ c ∈ [' '], isSpace c = true := List.forall_mem_singleton.mpr (by decide)
  exact typeTokens_spaces_append hblank cs

/-- White space at the end says nothing. -/
theorem typeTokensFrom_append_spaces {gap : List Char} (h : ∀ c ∈ gap, isSpace c = true) (word cs : List Char) :
    typeTokensFrom word (cs ++ gap) = typeTokensFrom word cs := by
  induction cs generalizing word with
  | nil =>
    cases gap with
    | nil => rfl
    | cons c gap =>
      obtain ⟨hc, hgap⟩ := List.forall_mem_cons.mp h
      have hnone : typeTokens gap = [] := by
        have := typeTokens_spaces_append hgap []
        rwa [List.append_nil] at this
      have hended : typeTokensFrom word (c :: gap) = endedWord word ++ typeTokens gap := by
        rw [typeTokensFrom, if_pos hc, typeTokens]
      rw [List.nil_append, hended, hnone, List.append_nil, typeTokensFrom]
  | cons c cs ih => simp only [List.cons_append, typeTokensFrom, ih]

theorem typeTokens_append_spaces {gap : List Char} (h : ∀ c ∈ gap, isSpace c = true) (cs : List Char) :
    typeTokens (cs ++ gap) = typeTokens cs :=
  typeTokensFrom_append_spaces h [] cs

/-- White space behind a text is removed by trimming its end. -/
theorem exists_gap_trimEndChars (cs : List Char) :
    ∃ back, cs = trimEndChars cs ++ back ∧ ∀ c ∈ back, isSpace c = true := by
  refine ⟨(cs.reverse.takeWhile isSpace).reverse, ?_, ?_⟩
  · rw [trimEndChars, ← List.reverse_append, List.takeWhile_append_dropWhile, List.reverse_reverse]
  · exact fun c hc => List.all_eq_true.mp List.all_takeWhile c (List.mem_reverse.mp hc)

/-- White space around a text is removed by trimming it. -/
theorem exists_gaps_trimChars (cs : List Char) :
    ∃ front back, cs = front ++ trimChars cs ++ back
      ∧ (∀ c ∈ front, isSpace c = true) ∧ ∀ c ∈ back, isSpace c = true := by
  have hfront : cs.takeWhile isSpace ++ cs.dropWhile isSpace = cs := List.takeWhile_append_dropWhile
  obtain ⟨back, hback, hspace⟩ := exists_gap_trimEndChars (cs.dropWhile isSpace)
  refine ⟨cs.takeWhile isSpace, back, ?_, fun c hc => List.all_eq_true.mp List.all_takeWhile c hc, hspace⟩
  rw [trimChars, List.append_assoc, ← hback, hfront]

/-- Trimming a text leaves its tokens. -/
theorem typeTokens_trimChars (cs : List Char) : typeTokens (trimChars cs) = typeTokens cs := by
  obtain ⟨front, back, hcs, hfront, hback⟩ := exists_gaps_trimChars cs
  conv_rhs => rw [hcs, typeTokens_append_spaces hback, typeTokens_spaces_append hfront]

/-- Parts with commas between them are told apart. -/
theorem typeTokens_intercalate (parts : List (List Char)) :
    typeTokens ([','].intercalate parts) = [[',']].intercalate (parts.map typeTokens) := by
  induction parts with
  | nil => rfl
  | cons first rest ih =>
    cases rest with
    | nil => simp
    | cons next others =>
      rw [List.intercalate_cons_cons, List.map_cons, List.map_cons, List.intercalate_cons_cons, ← List.map_cons, ← ih,
        List.append_assoc, List.singleton_append, typeTokens_mark (by decide), List.append_assoc, List.singleton_append]

/-- The tokens are made of all characters but the white space. -/
theorem flatten_typeTokensFrom (word cs : List Char) :
    (typeTokensFrom word cs).flatten = word ++ cs.filter (!isSpace ·) := by
  have hended : ∀ word, (endedWord word).flatten = word := by
    intro word
    by_cases hword : word = [] <;> simp [endedWord, hword]
  induction cs generalizing word with
  | nil => simp [typeTokensFrom, hended]
  | cons c cs ih =>
    rw [typeTokensFrom]
    by_cases hspace : isSpace c = true
    · simp [hspace, hended, ih]
    · by_cases hmark : isTypeMark c = true <;> simp [hspace, hmark, hended, ih]

theorem flatten_typeTokens (cs : List Char) : (typeTokens cs).flatten = cs.filter (!isSpace ·) :=
  flatten_typeTokensFrom [] cs

/-- Only white space has no tokens. -/
theorem typeTokens_eq_nil_iff {cs : List Char} : typeTokens cs = [] ↔ cs.all isSpace = true := by
  constructor
  · intro h
    have hflat := flatten_typeTokens cs
    rw [h, List.flatten_nil, eq_comm, List.filter_eq_nil_iff] at hflat
    simpa using hflat
  · intro h
    have hspaces := typeTokens_spaces_append (List.all_eq_true.mp h) []
    rwa [List.append_nil] at hspaces

/-! ## Arguments -/

/-- The parts between commas make up the text again. -/
theorem intercalate_splitArguments (depth : Nat) (cs : List Char) :
    [','].intercalate (splitArguments depth cs) = cs := by
  induction cs generalizing depth with
  | nil => rfl
  | cons c rest ih =>
    rw [splitArguments]
    split
    · next hcomma =>
      obtain ⟨first, others, hparts⟩ := List.exists_cons_of_ne_nil (splitArguments_ne_nil 0 rest)
      have hrest := ih 0
      rw [hparts] at hrest ⊢
      rw [List.intercalate_cons_cons, hrest, hcomma.1]
      rfl
    · obtain ⟨first, others, hparts⟩ := List.exists_cons_of_ne_nil (splitArguments_ne_nil (depthAfter depth c) rest)
      have hrest := ih (depthAfter depth c)
      rw [hparts] at hrest ⊢
      rw [extendFirst, ← hrest]
      cases others <;> simp [List.intercalate_cons_cons]

/-- The tokens of a raw type and of its arguments between angle brackets. -/
def parameterizedTokens (raw : String) (arguments : List String) : List (List Char) :=
  typeTokens raw.toList ++ ['<'] :: [[',']].intercalate (arguments.map fun argument => typeTokens argument.toList)
    ++ [['>']]

/-- A parameterized type is its raw type, its arguments, and what stands behind the last angle bracket. -/
theorem typeTokens_of_typeArguments?_eq_some {type raw : String} {arguments : List String}
    (h : typeArguments? type = some (raw, arguments)) :
    typeTokens type.toList = parameterizedTokens raw arguments ++ typeTokens (afterLast '>' type).toList := by
  rw [typeArguments?, Option.map_eq_some_iff] at h
  obtain ⟨⟨rawChars, argumentChars⟩, h, heq⟩ := h
  simp only [Prod.mk.injEq] at heq
  obtain ⟨rfl, rfl⟩ := heq
  rw [typeArgumentChars?] at h
  obtain ⟨⟨before, rest⟩, hcut, h⟩ := Option.bind_eq_some_iff.mp h
  obtain ⟨inner, hinner, h⟩ := Option.bind_eq_some_iff.mp h
  simp only [Option.pure_def, Option.some.injEq, Prod.mk.injEq] at h
  obtain ⟨rfl, rfl⟩ := h
  obtain ⟨c, htrimmed, hc, -⟩ := cutAt?_eq_some hcut
  obtain rfl : c = '<' := by simpa using hc
  obtain ⟨after, rfl, hafter⟩ := beforeLastChars?_eq_some_iff.mp hinner
  obtain ⟨front, back, htype, hfront, hback⟩ := exists_gaps_trimChars type.toList
  -- What follows the last angle bracket of the type is what follows that of the trimmed type, and white space.
  have hbehind : '>' ∉ after ++ back := by
    rw [List.mem_append, not_or]
    exact ⟨hafter, fun hmem => absurd (hback '>' hmem) (by decide)⟩
  have hlast : (afterLast '>' type).toList = after ++ back := by
    rw [afterLast, String.toList_ofList, htype, htrimmed]
    have hwhole := (afterLastChars_of_not_mem hbehind).2 (front ++ before ++ '<' :: inner)
    simpa using hwhole
  have hparts : typeTokens inner = [[',']].intercalate ((splitArguments 0 inner).map typeTokens) := by
    conv_lhs => rw [← intercalate_splitArguments 0 inner]
    exact typeTokens_intercalate _
  rw [hlast, typeTokens_append_spaces hback, ← typeTokens_trimChars type.toList, htrimmed,
    typeTokens_mark (by decide), typeTokens_mark (by decide), hparts, parameterizedTokens]
  simp [Function.comp_def, typeTokens_trimChars]

end EntityForge.Java
