import EntityForge.Proofs.ParameterizedTypes
import EntityForge.Synthesis.Placement

/-!
# Import statements from what authors write

An author names the target of an import with or without the keyword before it and the semicolon behind it, and with
white space around the whole. `importStatement` adds what is missing. It takes the keyword to be there when a blank
follows it, so it adds a second keyword to one that other white space follows.

Main statement: `importStatement_imports_iff`, that a complete statement stays as it is, and that the statement for a
target imports it exactly when no keyword was written or a blank follows it.
-/

namespace EntityForge

open Java Text

/-! ## What authors write -/

/-- The keyword of an import. -/
def importKeyword : List Char :=
  ['i', 'm', 'p', 'o', 'r', 't']

/-- What can be imported: a text without white space around it that neither begins with the keyword and white space nor
ends in a semicolon. -/
structure IsImportTarget (target : List Char) : Prop where
  nonempty : target ≠ []
  trimmed : IsTrimmed target
  bare : ∀ c, isSpace c = true → ¬importKeyword ++ [c] <+: target
  unended : target.getLast? ≠ some ';'

/-- A way to write the import of a target: with the keyword and white space before it, or without, with a semicolon
behind it or without, and with white space around. -/
structure ImportSpelling where
  before : Gap
  /-- The white space behind the keyword, if that is written. -/
  keyword : Option { gap : Gap // gap.1 ≠ [] }
  ended : Bool
  after : Gap

namespace ImportSpelling

/-- The keyword and the white space behind it. -/
def opening (spelling : ImportSpelling) : List Char :=
  match spelling.keyword with
  | none => []
  | some gap => importKeyword ++ gap.1.1

/-- The semicolon. -/
def ending (spelling : ImportSpelling) : List Char :=
  if spelling.ended then [';'] else []

/-- The import of a target, written in this way. -/
def text (spelling : ImportSpelling) (target : List Char) : String :=
  String.ofList (spelling.before.1 ++ (spelling.opening ++ target ++ spelling.ending) ++ spelling.after.1)

end ImportSpelling

/-- The statement is the keyword, white space, the target and a semicolon. -/
def Imports (statement : String) (target : List Char) : Prop :=
  ∃ gap, gap ≠ [] ∧ IsGap gap ∧ statement.toList = importKeyword ++ gap ++ target ++ [';']

/-! ## What is added -/

/-- The characters with the keyword and a blank before them, unless these are there. -/
def withKeyword (cs : List Char) : List Char :=
  if (importKeyword ++ [' ']).isPrefixOf cs then cs else importKeyword ++ [' '] ++ cs

/-- The characters with a semicolon behind them, unless it is there. -/
def withSemicolon (cs : List Char) : List Char :=
  if cs.getLast? = some ';' then cs else cs ++ [';']

theorem toList_importStatement (raw : String) :
    (importStatement raw).toList = withSemicolon (withKeyword (trimChars raw.toList)) := by
  have hkeyword : "import ".toList = importKeyword ++ [' '] := by decide
  have hstatement : ∀ trimmed : String,
      (if "import ".toList.isPrefixOf trimmed.toList then trimmed else "import " ++ trimmed).toList
        = withKeyword trimmed.toList := by
    intro trimmed
    rw [withKeyword, hkeyword]
    split
    · rfl
    · rw [String.toList_append, hkeyword]
  have hended : ∀ statement : String,
      (if statement.toList.getLast? = some ';' then statement else statement ++ ";").toList
        = withSemicolon statement.toList := by
    intro statement
    rw [withSemicolon]
    split
    · rfl
    · rw [String.toList_append]
      rfl
  simp only [importStatement, hended]
  rw [hstatement, trim, String.toList_ofList]

theorem prefix_withKeyword (cs : List Char) : importKeyword ++ [' '] <+: withKeyword cs := by
  rw [withKeyword]
  split
  · next hprefix => exact List.isPrefixOf_iff_prefix.mp hprefix
  · exact List.prefix_append _ cs

theorem withKeyword_of_present {cs : List Char} (h : importKeyword ++ [' '] <+: cs) : withKeyword cs = cs :=
  if_pos (List.isPrefixOf_iff_prefix.mpr h)

theorem withKeyword_of_missing {cs : List Char} (h : ¬importKeyword ++ [' '] <+: cs) :
    withKeyword cs = importKeyword ++ [' '] ++ cs :=
  if_neg (mt List.isPrefixOf_iff_prefix.mp h)

theorem prefix_withSemicolon (cs : List Char) : cs <+: withSemicolon cs := by
  rw [withSemicolon]
  split
  · exact List.prefix_refl cs
  · exact List.prefix_append cs _

theorem getLast?_withSemicolon (cs : List Char) : (withSemicolon cs).getLast? = some ';' := by
  rw [withSemicolon]
  split
  · next hlast => exact hlast
  · exact List.getLast?_concat

/-- A semicolon that is there already is the one that would be added. -/
theorem withSemicolon_append_ending {cs : List Char} (hlast : cs.getLast? ≠ some ';') (spelling : ImportSpelling) :
    withSemicolon (cs ++ spelling.ending) = cs ++ [';'] := by
  rw [ImportSpelling.ending]
  split
  · exact if_pos List.getLast?_concat
  · rw [List.append_nil]
    exact if_neg hlast

/-- An end of a text that is a certain character is no white space, if this is none. -/
theorem isSpace_eq_false_of_end {c : Char} {ending : Option Char} (h : ending = some c) (hc : isSpace c = false) :
    ∀ d ∈ ending, isSpace d = false := by
  intro d hd
  rw [h, Option.mem_some_iff] at hd
  rwa [← hd]

/-- What begins with the keyword and ends in a semicolon has no white space around it. -/
theorem isTrimmed_of_complete {cs : List Char} (hfirst : importKeyword <+: cs) (hlast : cs.getLast? = some ';') :
    IsTrimmed cs where
  first := by
    obtain ⟨rest, rfl⟩ := hfirst
    exact isSpace_eq_false_of_end rfl (by decide)
  last := isSpace_eq_false_of_end hlast (by decide)

/-- A complete statement stays as it is. -/
theorem importStatement_of_complete {statement : String} (hfirst : importKeyword ++ [' '] <+: statement.toList)
    (hlast : statement.toList.getLast? = some ';') : importStatement statement = statement := by
  have htrimmed : trimChars statement.toList = statement.toList := by
    have hgap : IsGap [] := by simp [IsGap]
    have hcomplete := isTrimmed_of_complete ((List.prefix_append importKeyword [' ']).trans hfirst) hlast
    simpa using hcomplete.trimChars_eq hgap hgap
  rw [← String.toList_inj, toList_importStatement, htrimmed, withKeyword_of_present hfirst, withSemicolon, if_pos hlast]

/-! ## What a target becomes -/

namespace IsImportTarget

variable {target : List Char}

/-- A target is not taken to have the keyword, whether a semicolon stands behind it or not. -/
theorem lacks_keyword (h : IsImportTarget target) (spelling : ImportSpelling) :
    ¬importKeyword ++ [' '] <+: target ++ spelling.ending := by
  have hbare : ¬importKeyword ++ [' '] <+: target := h.bare ' ' (by decide)
  rw [ImportSpelling.ending]
  split
  · rw [List.prefix_concat_iff, not_or]
    refine ⟨fun heq => ?_, hbare⟩
    have hlast := congrArg List.getLast? heq
    rw [List.getLast?_concat, List.getLast?_concat] at hlast
    exact absurd hlast (by decide)
  · rwa [List.append_nil]

/-- The written import has no white space around it but that before and behind the whole. -/
theorem isTrimmed (h : IsImportTarget target) (spelling : ImportSpelling) :
    IsTrimmed (spelling.opening ++ target ++ spelling.ending) where
  first := by
    rw [ImportSpelling.opening, List.append_assoc]
    cases spelling.keyword with
    | none =>
      rw [List.nil_append, List.head?_append_of_ne_nil _ h.nonempty]
      exact h.trimmed.first
    | some gap => exact isSpace_eq_false_of_end rfl (by decide)
  last := by
    rw [ImportSpelling.ending]
    split
    · exact isSpace_eq_false_of_end List.getLast?_concat (by decide)
    · rw [List.append_nil, List.getLast?_append_of_ne_nil _ h.nonempty]
      exact h.trimmed.last

end IsImportTarget

namespace ImportSpelling

variable {target : List Char}

/-- Whether the written import begins with the keyword and a blank. -/
def blankFollows (spelling : ImportSpelling) : Bool :=
  spelling.keyword.any fun gap => gap.1.1.head? = some ' '

/-- The statement that is made of a written import: a keyword is added unless a blank follows the one that is there. -/
theorem toList_importStatement_text (spelling : ImportSpelling) (h : IsImportTarget target) :
    (importStatement (spelling.text target)).toList
      = if spelling.blankFollows then spelling.opening ++ target ++ [';']
        else importKeyword ++ [' '] ++ spelling.opening ++ target ++ [';'] := by
  have htrimmed : trimChars (spelling.text target).toList = spelling.opening ++ target ++ spelling.ending := by
    rw [text, String.toList_ofList]
    exact (h.isTrimmed spelling).trimChars_eq spelling.before.2 spelling.after.2
  have hlast : ∀ front : List Char, (front ++ target).getLast? ≠ some ';' := by
    intro front
    rw [List.getLast?_append_of_ne_nil _ h.nonempty]
    exact h.unended
  have hfound : importKeyword ++ [' '] <+: spelling.opening ++ target ++ spelling.ending
      ↔ spelling.blankFollows = true := by
    rw [blankFollows, opening]
    cases hkeyword : spelling.keyword with
    | none => simpa using h.lacks_keyword spelling
    | some gap =>
      rw [List.append_assoc, List.append_assoc, List.prefix_append_right_inj]
      obtain ⟨c, rest, hgap⟩ := List.exists_cons_of_ne_nil gap.2
      simp [hgap, eq_comm]
  rw [toList_importStatement, htrimmed]
  split
  · next hblank => rw [withKeyword_of_present (hfound.mpr hblank), withSemicolon_append_ending (hlast _)]
  · next hblank =>
    rw [withKeyword_of_missing (mt hfound.mp hblank), ← List.append_assoc, ← List.append_assoc,
      withSemicolon_append_ending (hlast _)]

/-- The statement imports the target unless the keyword was written and no blank follows it. -/
theorem imports_iff (spelling : ImportSpelling) (h : IsImportTarget target) :
    Imports (importStatement (spelling.text target)) target
      ↔ ∀ gap ∈ spelling.keyword, gap.1.1.head? = some ' ' := by
  have hstatement := spelling.toList_importStatement_text h
  rw [blankFollows, opening] at hstatement
  cases hkeyword : spelling.keyword with
  | none =>
    have himports : Imports (importStatement (spelling.text target)) target :=
      ⟨[' '], List.cons_ne_nil _ _, List.forall_mem_singleton.mpr (by decide), by simpa [hkeyword] using hstatement⟩
    simpa using himports
  | some gap =>
    by_cases hblank : gap.1.1.head? = some ' '
    · have himports : Imports (importStatement (spelling.text target)) target :=
        ⟨gap.1.1, gap.2, gap.1.2, by simpa [hkeyword, hblank] using hstatement⟩
      simpa [hblank] using himports
    · -- Then there are two keywords, and the second is no white space.
      have htwice : (importStatement (spelling.text target)).toList
          = importKeyword ++ [' '] ++ (importKeyword ++ gap.1.1) ++ target ++ [';'] := by
        simpa [hkeyword, hblank] using hstatement
      have hnot : ¬Imports (importStatement (spelling.text target)) target := by
        rintro ⟨between, -, hbetween, heq⟩
        rw [htwice, List.append_left_inj, List.append_left_inj, List.append_assoc, List.append_right_inj] at heq
        have hletter : 'i' ∈ between := by
          rw [← heq]
          simp [importKeyword]
        exact absurd (hbetween 'i' hletter) (by decide)
      simpa [hblank] using hnot

end ImportSpelling

/-- **Import statements.** A statement that was made from what an author writes is made from itself. What an author
writes for a target becomes a statement that imports it, with one keyword and one semicolon, exactly when a blank
follows the keyword or none was written. -/
theorem importStatement_imports_iff (raw : String) :
    importStatement (importStatement raw) = importStatement raw
      ∧ ∀ target, IsImportTarget target → ∀ spelling : ImportSpelling,
        Imports (importStatement (spelling.text target)) target
          ↔ ∀ gap ∈ spelling.keyword, gap.1.1.head? = some ' ' := by
  refine ⟨?_, fun target htarget spelling => spelling.imports_iff htarget⟩
  have hraw := toList_importStatement raw
  apply importStatement_of_complete
  · rw [hraw]
    exact (prefix_withKeyword _).trans (prefix_withSemicolon _)
  · rw [hraw, getLast?_withSemicolon]

/-- The name of a class in a package can be imported. -/
theorem isImportTarget_list : IsImportTarget "java.util.List".toList where
  nonempty := by decide
  trimmed := ⟨isSpace_eq_false_of_end rfl (by decide), isSpace_eq_false_of_end rfl (by decide)⟩
  bare := by
    intro c _ hprefix
    -- The first letters differ.
    have hfirst : importKeyword <+: "java.util.List".toList := (List.prefix_append importKeyword [c]).trans hprefix
    exact absurd hfirst (by decide)
  unended := by decide

/-- With a blank behind the keyword and no semicolon, a statement is completed. -/
theorem importStatement_imports_list :
    IsImportTarget "java.util.List".toList
      ∧ Imports (importStatement " import  java.util.List\n") "java.util.List".toList := by
  refine ⟨isImportTarget_list, ?_⟩
  let spelling : ImportSpelling :=
    { before := ⟨[' '], by simp [IsGap, isSpace]⟩
      keyword := some ⟨⟨[' ', ' '], by simp [IsGap, isSpace]⟩, by decide⟩
      ended := false
      after := ⟨['\n'], by simp [IsGap, isSpace]⟩ }
  have htext : spelling.text "java.util.List".toList = " import  java.util.List\n" := by decide
  obtain ⟨-, himports⟩ := importStatement_imports_iff " import  java.util.List\n"
  have himports := (himports _ isImportTarget_list spelling).mpr (by simp [spelling])
  rwa [htext] at himports

/-- A tab behind the keyword hides it: the statement gets a second one, although it was complete. -/
theorem importStatement_repeats_keyword :
    ∃ spelling : ImportSpelling, spelling.text "java.util.List".toList = "import\tjava.util.List;"
      ∧ importStatement "import\tjava.util.List;" = "import import\tjava.util.List;"
      ∧ ¬Imports (importStatement "import\tjava.util.List;") "java.util.List".toList := by
  let spelling : ImportSpelling :=
    { before := noGap
      keyword := some ⟨⟨['\t'], by simp [IsGap, isSpace]⟩, by decide⟩
      ended := true
      after := noGap }
  have htext : spelling.text "java.util.List".toList = "import\tjava.util.List;" := by decide
  refine ⟨spelling, htext, by decide, ?_⟩
  rw [← htext, spelling.imports_iff isImportTarget_list]
  simp [spelling]

end EntityForge
