import EntityForge.Proofs.TypeTokens
import Mathlib.Data.List.TakeWhile

/-!
# Parameterized types read back

A parameterized type is written as its raw name and its arguments between angle brackets, with commas between them and
white space wherever it is allowed. An argument may be parameterized itself, and commas within its brackets separate
nothing.

Main statement: `typeArguments?_reads_back`, that taking a type apart undoes writing it, however deep its arguments go, and
that nothing is taken apart exactly when no closing bracket follows an opening one.
-/

namespace EntityForge.Java

open Text

/-! ## What is written -/

/-- Nothing but white space. -/
def IsGap (cs : List Char) : Prop :=
  ∀ c ∈ cs, isSpace c = true

/-- White space, or nothing. -/
abbrev Gap :=
  { cs : List Char // IsGap cs }

/-- Nothing. -/
def noGap : Gap :=
  ⟨[], by simp [IsGap]⟩

/-- The white space of one gap and then that of another. -/
def joinGaps (gap gap' : Gap) : Gap :=
  ⟨gap.1 ++ gap'.1, List.forall_mem_append.mpr ⟨gap.2, gap'.2⟩⟩

/-- Characters that neither begin nor end with white space. -/
structure IsTrimmed (cs : List Char) : Prop where
  first : ∀ c ∈ cs.head?, isSpace c = false
  last : ∀ c ∈ cs.getLast?, isSpace c = false

/-- Characters whose angle brackets are balanced. Commas stand within brackets, or also outside them if the characters
themselves stand within some. -/
inductive Bracketed : Bool → List Char → Prop
  | nil (inside : Bool) : Bracketed inside []
  | char {inside : Bool} {c : Char} {cs : List Char} (hbracket : c ≠ '<' ∧ c ≠ '>') (hcomma : c = ',' → inside = true)
      (hrest : Bracketed inside cs) : Bracketed inside (c :: cs)
  | group {inside : Bool} {inner cs : List Char} (hinner : Bracketed true inner) (hrest : Bracketed inside cs) :
      Bracketed inside ('<' :: inner ++ '>' :: cs)

/-- The name of a type without its arguments. -/
structure IsRawName (cs : List Char) : Prop where
  nonempty : cs ≠ []
  trimmed : IsTrimmed cs
  unmarked : ∀ c ∈ cs, isTypeMark c = false

/-- An argument of a parameterized type. -/
structure IsTypeArgument (cs : List Char) : Prop where
  nonempty : cs ≠ []
  trimmed : IsTrimmed cs
  bracketed : Bracketed false cs

/-- Arguments with commas between them, and white space around each. -/
inductive WritesArguments : List (List Char) → List Char → Prop
  | last {front argument back : List Char} (hfront : IsGap front) (hback : IsGap back) :
      WritesArguments [argument] (front ++ argument ++ back)
  | cons {front argument back cs : List Char} {arguments : List (List Char)} (hfront : IsGap front)
      (hback : IsGap back) (hrest : WritesArguments arguments cs) :
      WritesArguments (argument :: arguments) (front ++ argument ++ back ++ ',' :: cs)

/-- A raw name and arguments as a type, with white space around the whole, the arguments and the commas. -/
def WritesType (raw : List Char) (arguments : List (List Char)) (cs : List Char) : Prop :=
  ∃ front inner back, IsGap front ∧ IsGap back ∧ WritesArguments arguments inner
    ∧ cs = front ++ (raw ++ '<' :: inner ++ ['>']) ++ back

/-! ## Trimming -/

/-- White space around trimmed characters is all that trimming removes. -/
theorem IsTrimmed.trimChars_eq {front cs back : List Char} (h : IsTrimmed cs) (hfront : IsGap front)
    (hback : IsGap back) : trimChars (front ++ cs ++ back) = cs := by
  have hself : ∀ l : List Char, (∀ c ∈ l.head?, isSpace c = false) → l.dropWhile isSpace = l := by
    intro l hl
    cases l with
    | nil => rfl
    | cons c rest => exact List.dropWhile_cons_of_neg (by simp [hl c rfl])
  have hback : back.all isSpace = true := List.all_eq_true.mpr hback
  rw [List.append_assoc, trimChars_space_append (List.all_eq_true.mpr hfront)]
  by_cases hnil : cs = []
  · rwa [hnil, List.nil_append, trimChars_eq_nil_iff]
  · have hfirst : ∀ c ∈ (cs ++ back).head?, isSpace c = false := by
      rw [List.head?_append_of_ne_nil cs hnil]
      exact h.first
    have hlast : ∀ c ∈ cs.reverse.head?, isSpace c = false := by
      rw [List.head?_reverse]
      exact h.last
    rw [trimChars, hself _ hfirst, trimEndChars_append_space hback, trimEndChars, hself _ hlast, List.reverse_reverse]

/-! ## Splitting at commas -/

/-- Characters in front of the parts belong to the first of them. -/
theorem foldr_extendFirst (cs first : List Char) (others : List (List Char)) :
    cs.foldr extendFirst (first :: others) = (cs ++ first) :: others := by
  induction cs with
  | nil => rfl
  | cons c cs ih => rw [List.foldr_cons, ih, extendFirst, List.cons_append]

namespace Bracketed

variable {inside : Bool} {cs cs' : List Char}

theorem append (h : Bracketed inside cs) (h' : Bracketed inside cs') : Bracketed inside (cs ++ cs') := by
  induction h with
  | nil => exact h'
  | char hbracket hcomma _ ih => exact .char hbracket hcomma (ih h')
  | group hinner _ _ ih =>
    rw [List.append_assoc, List.cons_append]
    exact .group hinner (ih h')

/-- Without brackets there is nothing to balance. -/
theorem of_forall (h : ∀ c ∈ cs, (c ≠ '<' ∧ c ≠ '>') ∧ (c = ',' → inside = true)) : Bracketed inside cs := by
  induction cs with
  | nil => exact .nil inside
  | cons c cs ih =>
    obtain ⟨⟨hbracket, hcomma⟩, hcs⟩ := List.forall_mem_cons.mp h
    exact .char hbracket hcomma (ih hcs)

theorem of_isGap (h : IsGap cs) : Bracketed inside cs := by
  refine of_forall fun c hc => ?_
  have hne : ∀ d, isSpace d = false → c ≠ d := by
    rintro d hd rfl
    exact absurd (hd.symm.trans (h c hc)) (by decide)
  exact ⟨⟨hne '<' (by decide), hne '>' (by decide)⟩, fun hcomma => absurd hcomma (hne ',' (by decide))⟩

/-- Balanced characters leave the depth as it was, and none of their commas separates. -/
theorem splitArguments_append (h : Bracketed inside cs) {depth : Nat} (hdepth : inside = true → 0 < depth)
    (rest : List Char) :
    splitArguments depth (cs ++ rest) = cs.foldr extendFirst (splitArguments depth rest) := by
  induction h generalizing depth rest with
  | nil => rfl
  | @char inside c cs hbracket hcomma _ ih =>
    have hstays : ¬(c = ',' ∧ depth = 0) := by
      rintro ⟨hc, hzero⟩
      have := hdepth (hcomma hc)
      omega
    rw [List.cons_append, splitArguments, if_neg hstays, depthAfter, if_neg hbracket.1, if_neg hbracket.2, ih hdepth,
      List.foldr_cons]
  | @group inside inner cs _ _ ihinner ih =>
    -- The brackets around `inner` lift the depth by one and lower it again.
    have hopen : splitArguments depth ('<' :: (inner ++ '>' :: (cs ++ rest)))
        = extendFirst '<' (splitArguments (depth + 1) (inner ++ '>' :: (cs ++ rest))) := by
      simp [splitArguments, depthAfter]
    have hclose : splitArguments (depth + 1) ('>' :: (cs ++ rest)) = extendFirst '>' (splitArguments depth (cs ++ rest)) := by
      simp [splitArguments, depthAfter]
    have hinner := ihinner (fun _ => Nat.succ_pos depth) ('>' :: (cs ++ rest))
    rw [hclose, ih hdepth] at hinner
    rw [List.append_assoc, List.cons_append, List.cons_append, hopen, hinner]
    simp

/-- A comma outside brackets ends an argument. -/
theorem splitArguments_comma (h : Bracketed false cs) (rest : List Char) :
    splitArguments 0 (cs ++ ',' :: rest) = cs :: splitArguments 0 rest := by
  have hcomma : splitArguments 0 (',' :: rest) = [] :: splitArguments 0 rest := by simp [splitArguments]
  rw [h.splitArguments_append (by simp), hcomma, foldr_extendFirst, List.append_nil]

/-- Without a comma outside brackets there is one argument. -/
theorem splitArguments_eq (h : Bracketed false cs) : splitArguments 0 cs = [cs] := by
  have hall : splitArguments 0 (cs ++ []) = cs.foldr extendFirst (splitArguments 0 []) :=
    h.splitArguments_append (by simp) []
  rwa [List.append_nil, splitArguments, foldr_extendFirst, List.append_nil] at hall

end Bracketed

/-- Arguments that are written are split and trimmed to what they were. -/
theorem WritesArguments.map_trimChars_splitArguments {arguments : List (List Char)} {cs : List Char}
    (h : WritesArguments arguments cs) (harguments : ∀ argument ∈ arguments, IsTypeArgument argument) :
    (splitArguments 0 cs).map trimChars = arguments := by
  have hspaced : ∀ {front argument back : List Char}, IsGap front → IsGap back → IsTypeArgument argument →
      Bracketed false (front ++ argument ++ back) := fun hfront hback hargument =>
    ((Bracketed.of_isGap hfront).append hargument.bracketed).append (.of_isGap hback)
  induction h with
  | last hfront hback =>
    have hargument := harguments _ List.mem_cons_self
    rw [(hspaced hfront hback hargument).splitArguments_eq, List.map_singleton,
      hargument.trimmed.trimChars_eq hfront hback]
  | cons hfront hback _ ih =>
    obtain ⟨hargument, hothers⟩ := List.forall_mem_cons.mp harguments
    rw [(hspaced hfront hback hargument).splitArguments_comma, List.map_cons,
      hargument.trimmed.trimChars_eq hfront hback, ih hothers]

/-! ## Types -/

/-- A type that is written comes apart into what it was written of. -/
theorem WritesType.typeArgumentChars?_eq {raw cs : List Char} {arguments : List (List Char)}
    (h : WritesType raw arguments cs) (hraw : IsRawName raw)
    (harguments : ∀ argument ∈ arguments, IsTypeArgument argument) :
    typeArgumentChars? cs = some (raw, arguments) := by
  obtain ⟨front, inner, back, hfront, hback, hinner, rfl⟩ := h
  have htrimmed : IsTrimmed (raw ++ '<' :: inner ++ ['>']) := by
    constructor
    · rw [List.append_assoc, List.head?_append_of_ne_nil raw hraw.nonempty]
      exact hraw.trimmed.first
    · rw [List.getLast?_concat]
      rintro c ⟨⟩
      decide
  have hcut : cutAt? (· == '<') (raw ++ '<' :: (inner ++ ['>'])) = some (raw, inner ++ ['>']) := by
    refine cutAt?_append (by simp) fun c hc => ?_
    have hunmarked := hraw.unmarked c hc
    simp only [isTypeMark, Bool.or_eq_false_iff] at hunmarked
    exact hunmarked.1.1
  have hclosing : beforeLastChars? '>' (inner ++ ['>']) = some inner :=
    beforeLastChars?_eq_some_iff.mpr ⟨[], rfl, List.not_mem_nil⟩
  rw [typeArgumentChars?, htrimmed.trimChars_eq hfront hback, List.append_assoc, List.cons_append, hcut]
  simp [hclosing, hinner.map_trimChars_splitArguments harguments]

/-- Nothing precedes a last `sep` exactly when there is none. -/
theorem beforeLastChars?_eq_none_iff {sep : Char} {cs : List Char} : beforeLastChars? sep cs = none ↔ sep ∉ cs := by
  have hdrop : cs.reverse.dropWhile (· != sep) = [] ↔ sep ∉ cs := by
    rw [List.dropWhile_eq_nil_iff]
    refine ⟨fun h hmem => ?_, bne_of_mem_reverse⟩
    simpa using h sep (List.mem_reverse.mpr hmem)
  rw [beforeLastChars?, ← hdrop]
  split
  · next hnil => simp [hnil]
  · next hcons => simp [hcons]

/-- No closing bracket follows an opening one: the text can be cut in two, with no opening bracket before the cut and no
closing one behind it. -/
def NeverCloses (cs : List Char) : Prop :=
  ∃ before after, cs = before ++ after ∧ '<' ∉ before ∧ '>' ∉ after

/-- The earliest place for the cut is before the first opening bracket. -/
theorem neverCloses_iff {cs : List Char} : NeverCloses cs ↔ '>' ∉ cs.dropWhile (· != '<') := by
  constructor
  · rintro ⟨before, after, rfl, hbefore, hafter⟩ hmem
    have hskipped : ∀ c ∈ before, (c != '<') = true := by
      intro c hc
      rw [bne_iff_ne]
      rintro rfl
      exact hbefore hc
    rw [List.dropWhile_append_of_pos hskipped] at hmem
    exact hafter ((List.dropWhile_suffix _).subset hmem)
  · intro h
    refine ⟨_, _, List.takeWhile_append_dropWhile.symm, fun hmem => ?_, h⟩
    have := List.all_eq_true.mp List.all_takeWhile '<' hmem
    simp at this

/-- White space at the ends makes no difference. -/
theorem neverCloses_trimChars_iff {cs : List Char} : NeverCloses (trimChars cs) ↔ NeverCloses cs := by
  obtain ⟨front, back, hcs, hfront, hback⟩ := exists_gaps_trimChars cs
  have hne : ∀ {gap : List Char}, IsGap gap → ∀ c ∈ gap, (c != '<') = true ∧ c ≠ '>' := by
    intro gap hgap c hc
    constructor
    · rw [bne_iff_ne]
      rintro rfl
      exact absurd (hgap '<' hc) (by decide)
    · rintro rfl
      exact absurd (hgap '>' hc) (by decide)
  have hbackFree : back.dropWhile (· != '<') = [] := by
    rw [List.dropWhile_eq_nil_iff]
    exact fun c hc => (hne hback c hc).1
  have hcloses : '>' ∉ back := fun hmem => (hne hback '>' hmem).2 rfl
  conv_rhs => rw [hcs]
  rw [neverCloses_iff, neverCloses_iff, List.append_assoc,
    List.dropWhile_append_of_pos fun c hc => (hne hfront c hc).1, List.dropWhile_append]
  split
  · next hnil =>
    rw [List.isEmpty_iff] at hnil
    simp [hnil, hbackFree]
  · simp [hcloses]

/-- Nothing is taken apart exactly when no closing bracket follows an opening one. -/
theorem typeArgumentChars?_eq_none_iff {cs : List Char} : typeArgumentChars? cs = none ↔ NeverCloses cs := by
  rw [← neverCloses_trimChars_iff, neverCloses_iff, typeArgumentChars?]
  cases hcut : cutAt? (· == '<') (trimChars cs) with
  | none =>
    have hfree := cutAt?_eq_none_iff.mp hcut
    have hnil : (trimChars cs).dropWhile (· != '<') = [] := by
      rw [List.dropWhile_eq_nil_iff]
      exact fun c hc => by simpa using hfree c hc
    simp [hnil]
  | some parts =>
    obtain ⟨before, after⟩ := parts
    obtain ⟨c, htrimmed, hc, hbefore⟩ := cutAt?_eq_some hcut
    obtain rfl : c = '<' := by simpa using hc
    have hdrop : (trimChars cs).dropWhile (· != '<') = '<' :: after := by
      rw [htrimmed, List.dropWhile_append_of_pos fun c hc => by simpa using hbefore c hc]
      simp
    rw [hdrop]
    cases hlast : beforeLastChars? '>' after with
    | none => simpa [hlast] using beforeLastChars?_eq_none_iff.mp hlast
    | some inner =>
      obtain ⟨rest, rfl, -⟩ := beforeLastChars?_eq_some_iff.mp hlast
      simp [hlast]

/-- **Taking a type apart undoes writing it.** Whatever raw name and arguments a type is written of, with whatever white
space, they are what it is taken apart into. A text in which no closing bracket follows an opening one is not taken
apart, and every other text is. -/
theorem typeArguments?_reads_back :
    (∀ (raw : String) (arguments : List String) (type : String), IsRawName raw.toList →
      (∀ argument ∈ arguments, IsTypeArgument argument.toList) →
      WritesType raw.toList (arguments.map String.toList) type.toList → typeArguments? type = some (raw, arguments))
      ∧ ∀ type : String, typeArguments? type = none ↔ NeverCloses type.toList := by
  constructor
  · intro raw arguments type hraw harguments h
    have hchars := h.typeArgumentChars?_eq hraw (by simpa using harguments)
    simp [typeArguments?, hchars, Function.comp_def]
  · intro type
    rw [typeArguments?, Option.map_eq_none_iff, typeArgumentChars?_eq_none_iff]

/-- A map to lists of maps, with white space of three kinds, comes apart into its two arguments. -/
theorem typeArguments?_reads_back_nestedMap :
    IsRawName "java.util.Map".toList
      ∧ (∀ argument ∈ ["String", "List<Map<Long, int[]>>"], IsTypeArgument argument.toList)
      ∧ WritesType "java.util.Map".toList (["String", "List<Map<Long, int[]>>"].map String.toList)
        "\tjava.util.Map< String ,\n  List<Map<Long, int[]>> > ".toList
      ∧ typeArguments? "\tjava.util.Map< String ,\n  List<Map<Long, int[]>> > "
        = some ("java.util.Map", ["String", "List<Map<Long, int[]>>"]) := by
  have hends : (isSpace 'j' = false ∧ isSpace 'p' = false) ∧ (isSpace 'S' = false ∧ isSpace 'g' = false)
      ∧ isSpace 'L' = false ∧ isSpace '>' = false := by
    decide
  have hraw : IsRawName "java.util.Map".toList :=
    ⟨by simp, ⟨by simpa using hends.1.1, by simpa using hends.1.2⟩, by simp [isTypeMark]⟩
  have harguments : ∀ argument ∈ ["String", "List<Map<Long, int[]>>"], IsTypeArgument argument.toList := by
    have hmap : Bracketed true ("Map".toList ++ ('<' :: "Long, int[]".toList ++ '>' :: [])) :=
      (Bracketed.of_forall (by simp)).append (.group (.of_forall (by simp)) (.nil true))
    have hlist : Bracketed false ("List".toList ++ ('<' :: "Map<Long, int[]>".toList ++ '>' :: [])) :=
      (Bracketed.of_forall (by simp)).append (.group hmap (.nil false))
    refine List.forall_mem_cons.mpr ⟨?_, List.forall_mem_singleton.mpr ?_⟩
    · exact ⟨by simp, ⟨by simpa using hends.2.1.1, by simpa using hends.2.1.2⟩, .of_forall (by simp)⟩
    · exact ⟨by simp, ⟨by simpa using hends.2.2.1, by simpa using hends.2.2.2⟩, hlist⟩
  have hgap : ∀ gap ∈ [[], [' '], ['\t'], ['\n', ' ', ' ']], IsGap gap := by
    have hblank : isSpace ' ' = true ∧ isSpace '\t' = true ∧ isSpace '\n' = true := by decide
    simp [IsGap, hblank]
  have hinner : WritesArguments (["String", "List<Map<Long, int[]>>"].map String.toList)
      ([' '] ++ "String".toList ++ [' '] ++ ',' :: (['\n', ' ', ' '] ++ "List<Map<Long, int[]>>".toList ++ [' '])) :=
    .cons (hgap _ (by simp)) (hgap _ (by simp)) (.last (hgap _ (by simp)) (hgap _ (by simp)))
  have hwritten : WritesType "java.util.Map".toList (["String", "List<Map<Long, int[]>>"].map String.toList)
      "\tjava.util.Map< String ,\n  List<Map<Long, int[]>> > ".toList :=
    ⟨['\t'], _, [' '], hgap _ (by simp), hgap _ (by simp), hinner, by decide⟩
  exact ⟨hraw, harguments, hwritten, typeArguments?_reads_back.1 _ _ _ hraw harguments hwritten⟩

end EntityForge.Java
