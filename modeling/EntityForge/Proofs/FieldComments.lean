import EntityForge.Proofs.AnnotationTokens
import EntityForge.Proofs.ArrayTypes
import EntityForge.Proofs.ConstrainedTypes

/-!
# Comments of fields

The description of an attribute stands in a comment above its field, every line behind a star. A comment ends where a
star and a slash first follow each other, and the description is written as it is.

Main statement: `description_in_one_comment_iff`, that the lines of a description come back from what stands above its
field, and that this is one comment exactly when the description has no star in front of a slash.
-/

namespace EntityForge

open Java Text Layout

/-! ## Reading comments -/

/-- The characters that close a comment. -/
def commentEnd : List Char :=
  ['*', '/']

/-- What a comment holds and what is behind it, read behind the characters that open it. -/
def readBody? : List Char → Option (List Char × List Char)
  | [] => none
  | '*' :: '/' :: rest => some ([], rest)
  | c :: rest => (readBody? rest).map fun (body, after) => (c :: body, after)

/-- What is in the comment that the source begins with, and what is behind it. White space may stand in front. -/
def readComment? (source : List Char) : Option (List Char × List Char) :=
  match source.dropWhile Token.isGap with
  | '/' :: '*' :: rest => readBody? rest
  | _ => none

/-- The text is one comment: whatever follows it in a source, the comment that is read takes up just the text. -/
def IsOneComment (text : String) : Prop :=
  ∃ body, ∀ rest, readComment? (text.toList ++ rest) = some (body, rest)

/-- What stands behind the star of a line in a comment, and behind a blank after it. -/
def behindStar? (line : List Char) : Option (List Char) :=
  match line.dropWhile (· = ' ') with
  | ['*'] => some []
  | '*' :: ' ' :: rest => some rest
  | _ => none

/-- The lines that a comment shows: of all but its first and its last line, what stands behind the star. -/
def shownLines? (text : String) : Option (List String) :=
  (cutLines text).tail.dropLast.mapM fun line => (behindStar? line.toList).map String.ofList

/-- A body without the characters that close a comment is read up to where these follow it. -/
theorem readBody?_append {body : List Char} (h : ¬commentEnd <:+: body) (rest : List Char) :
    readBody? (body ++ commentEnd ++ rest) = some (body, rest) := by
  induction body with
  | nil => rfl
  | cons c body ih =>
    have hbody : ¬commentEnd <:+: body := fun hcloses => h (List.infix_cons hcloses)
    -- A star at the end of the body is followed by the star of the end, which closes nothing yet.
    have hgoes : ∀ after, c = '*' → body ++ commentEnd ++ rest = '/' :: after → False := by
      rintro after rfl hslash
      cases body with
      | nil => exact absurd (List.cons.inj hslash).1 (by decide)
      | cons d body =>
        obtain rfl : d = '/' := (List.cons.inj hslash).1
        exact h ⟨[], body, rfl⟩
    show readBody? (c :: (body ++ commentEnd ++ rest)) = _
    rw [readBody?.eq_3 c _ hgoes, ih hbody]
    rfl

/-- The body of a comment is in front of the characters that close it, and these are not in it. -/
theorem eq_of_readBody?_eq_some {cs body rest : List Char} (h : readBody? cs = some (body, rest)) :
    cs = body ++ commentEnd ++ rest ∧ ¬commentEnd <:+: body := by
  induction cs using readBody?.induct generalizing body with
  | case1 => exact absurd h (by simp [readBody?])
  | case2 after =>
    obtain ⟨rfl, rfl⟩ := Prod.mk.inj (Option.some.inj h)
    exact ⟨rfl, by simp [commentEnd]⟩
  | case3 c after hgoes ih =>
    rw [readBody?.eq_3 c after hgoes] at h
    obtain ⟨⟨inner, behind⟩, hinner, hbody⟩ := Option.map_eq_some_iff.mp h
    obtain ⟨rfl, rfl⟩ := Prod.mk.inj hbody
    obtain ⟨rfl, hopen⟩ := ih hinner
    refine ⟨rfl, ?_⟩
    rw [List.infix_cons_iff, not_or]
    refine ⟨fun hprefix => ?_, hopen⟩
    obtain ⟨tail, htail⟩ := hprefix
    obtain ⟨hstar, hslash⟩ := List.cons.inj htail
    refine hgoes (tail ++ commentEnd ++ behind) hstar.symm ?_
    rw [← hslash]
    rfl

/-- A text that opens a comment and closes it at its end is one comment exactly when it does not close it before. -/
theorem isOneComment_iff {text : String} {gap body : List Char} (hgap : ∀ c ∈ gap, Token.isGap c = true)
    (htext : text.toList = gap ++ ['/', '*'] ++ body ++ commentEnd) : IsOneComment text ↔ ¬commentEnd <:+: body := by
  have hread : ∀ rest, readComment? (text.toList ++ rest) = readBody? (body ++ commentEnd ++ rest) := by
    intro rest
    have hopen : ['/', '*'].dropWhile Token.isGap = ['/', '*'] := by decide
    rw [readComment?, htext, List.append_assoc, List.append_assoc, List.append_assoc, List.append_assoc,
      List.dropWhile_append_of_pos hgap]
    rfl
  constructor
  · rintro ⟨inner, hinner⟩
    have hall := hinner []
    rw [hread] at hall
    obtain ⟨heq, hopen⟩ := eq_of_readBody?_eq_some hall
    rw [List.append_nil, List.append_nil, List.append_left_inj] at heq
    exact heq ▸ hopen
  · intro hopen
    refine ⟨body, fun rest => ?_⟩
    rw [hread, readBody?_append hopen]

/-! ## Where a comment is closed -/

/-- Two texts, one behind the other, close a comment where one of them does, unless the one ends in a star and the other
begins with a slash. -/
theorem commentEnd_infix_append_iff {cs cs' : List Char} (h : cs.getLast? ≠ some '*' ∨ cs'.head? ≠ some '/') :
    commentEnd <:+: cs ++ cs' ↔ commentEnd <:+: cs ∨ commentEnd <:+: cs' := by
  rw [List.infix_append_iff_ne_nil]
  have hapart : ¬∃ front back, front ≠ [] ∧ back ≠ [] ∧ commentEnd = front ++ back ∧ front <:+ cs ∧ back <+: cs' := by
    rintro ⟨front, back, hfront, hback, hend, ⟨before, rfl⟩, ⟨after, rfl⟩⟩
    obtain ⟨slash, back, rfl⟩ := List.exists_cons_of_ne_nil hback
    -- With a part in either text, the star is the end of the one and the slash the beginning of the other.
    match front with
    | [] => exact hfront rfl
    | [star] =>
      obtain ⟨rfl, rfl, -⟩ : '*' = star ∧ '/' = slash ∧ [] = back := by simpa [commentEnd] using hend
      simp at h
    | star :: more :: front => simp [commentEnd] at hend
  rw [or_iff_left hapart]

/-- A line end never helps to close a comment. -/
theorem commentEnd_infix_append_feed_iff (cs cs' : List Char) :
    commentEnd <:+: cs ++ '\n' :: cs' ↔ commentEnd <:+: cs ∨ commentEnd <:+: cs' := by
  rw [commentEnd_infix_append_iff (.inr (by simp)), List.infix_cons_iff]
  simp [commentEnd]

/-- What is trimmed away at the end of a text has no part in closing a comment. -/
theorem commentEnd_infix_trimEndChars_iff (cs : List Char) :
    commentEnd <:+: trimEndChars cs ↔ commentEnd <:+: cs := by
  obtain ⟨gap, hcs, hspace⟩ := exists_gap_trimEndChars cs
  have hapart : gap.head? ≠ some '/' := by
    intro hslash
    exact absurd (hspace '/' (List.mem_of_mem_head? hslash)) (by decide)
  have hgap : ¬commentEnd <:+: gap := by
    intro hcloses
    exact absurd (hspace '*' (hcloses.subset List.mem_cons_self)) (by decide)
  conv_rhs => rw [hcs, commentEnd_infix_append_iff (.inr hapart), or_iff_left hgap]

/-- A character that is no line end goes with what stands in front of the first line. -/
theorem foldr_extendFirst_lineChars_cons (front : List Char) {c : Char} {rest : List Char} (hfeed : c ≠ '\n')
    (hreturn : ∀ after, c = '\r' → rest = '\n' :: after → False) :
    front.foldr extendFirst (lineChars (c :: rest)) = (front ++ [c]).foldr extendFirst (lineChars rest) := by
  have hfirst : lineChars (c :: rest) = extendFirst c (lineChars rest) := by
    rw [lineChars.eq_4 c rest hfeed hreturn]
    cases lineChars rest <;> rfl
  rw [hfirst, List.foldr_append]
  rfl

/-- A comment is closed in a text exactly when it is in one of its lines. The characters of a line are moved one by one
to what stands in front of it. -/
theorem commentEnd_infix_append_iff_lineChars (front cs : List Char) :
    commentEnd <:+: front ++ cs ↔ ∃ line ∈ front.foldr extendFirst (lineChars cs), commentEnd <:+: line := by
  induction cs using lineChars.induct generalizing front with
  | case1 =>
    rcases List.eq_nil_or_concat front with rfl | ⟨init, c, rfl⟩
    · simp [lineChars, commentEnd]
    · have hline : (init ++ [c]).foldr extendFirst [] = [init ++ [c]] := by
        rw [List.foldr_append]
        exact foldr_extendFirst init [c] []
      simp [lineChars, hline]
  | case2 rest ih =>
    have hrest := ih []
    rw [lineChars, foldr_extendFirst, List.append_nil, commentEnd_infix_append_feed_iff]
    simpa using or_congr_right hrest
  | case3 rest ih =>
    have hrest := ih []
    have hreturn : ¬commentEnd <:+: ['\r'] := by decide
    rw [lineChars, foldr_extendFirst, List.append_nil, List.append_cons, commentEnd_infix_append_feed_iff,
      commentEnd_infix_append_iff (.inr (by simp)), or_iff_left hreturn]
    simpa using or_congr_right hrest
  | case4 c rest hfeed hreturn _ ih =>
    rw [foldr_extendFirst_lineChars_cons front hfeed hreturn, List.append_cons]
    exact ih _
  | case5 c rest hfeed hreturn _ _ _ ih =>
    rw [foldr_extendFirst_lineChars_cons front hfeed hreturn, List.append_cons]
    exact ih _

/-! ## The comment above a field -/

/-- The line of a comment that shows a line of a text. -/
def commentRow (line : List Char) : List Char :=
  List.replicate 5 ' ' ++ ['*'] ++ trimEndChars (' ' :: line)

/-- A blank in front of a text is trimmed away with the whole. -/
theorem trimEndChars_blank_cons (line : List Char) :
    trimEndChars (' ' :: line) = if trimEndChars line = [] then [] else ' ' :: trimEndChars line := by
  have hblank : [' '].dropWhile isSpace = [] := by decide
  rw [trimEndChars, List.reverse_cons, List.dropWhile_append, hblank]
  split
  · next hnil => rw [if_pos (by simpa [trimEndChars] using hnil), List.reverse_nil]
  · next hkept => rw [if_neg (by simpa [trimEndChars] using hkept), List.reverse_append, trimEndChars]; rfl

theorem commentEnd_infix_commentRow_iff (line : List Char) :
    commentEnd <:+: commentRow line ↔ commentEnd <:+: line := by
  have hblank : (trimEndChars (' ' :: line)).head? ≠ some '/' := by
    rw [trimEndChars_blank_cons]
    split <;> simp
  have hstar : ¬commentEnd <:+: List.replicate 5 ' ' ++ ['*'] := by decide
  have hapart : commentEnd <:+: [' '] ++ line ↔ commentEnd <:+: [' '] ∨ commentEnd <:+: line :=
    commentEnd_infix_append_iff (.inl (by decide))
  rw [commentRow, commentEnd_infix_append_iff (.inr hblank), commentEnd_infix_trimEndChars_iff, or_iff_right hstar,
    ← List.singleton_append, hapart, or_iff_right (by decide)]

theorem behindStar?_commentRow (line : List Char) : behindStar? (commentRow line) = some (trimEndChars line) := by
  rw [commentRow, trimEndChars_blank_cons]
  split
  · next hnil =>
    rw [hnil]
    rfl
  · rfl

theorem not_mem_commentRow {line : List Char} (h : '\n' ∉ line) : '\n' ∉ commentRow line := by
  obtain ⟨gap, hline, -⟩ := exists_gap_trimEndChars (' ' :: line)
  have hkept : '\n' ∉ trimEndChars (' ' :: line) := by
    intro hfeed
    have hmem : '\n' ∈ ' ' :: line := hline ▸ List.mem_append_left gap hfeed
    simp [h] at hmem
  rw [commentRow, List.mem_append, not_or]
  exact ⟨by decide, hkept⟩

/-- What is in the comment that shows these lines. -/
def commentBody (ls : List (List Char)) : List Char :=
  ['*'] ++ '\n' :: (ls.flatMap (fun line => commentRow line ++ ['\n']) ++ List.replicate 5 ' ')

/-- The comment is closed in its body exactly when it is in a line that it shows. -/
theorem commentEnd_infix_commentBody_iff (ls : List (List Char)) :
    commentEnd <:+: commentBody ls ↔ ∃ line ∈ ls, commentEnd <:+: line := by
  have hstar : ¬commentEnd <:+: ['*'] := by decide
  rw [commentBody, commentEnd_infix_append_feed_iff, or_iff_right hstar]
  induction ls with
  | nil => exact iff_of_false (by decide) (by simp)
  | cons line rest ih =>
    rw [List.flatMap_cons, List.append_assoc, List.append_assoc, List.singleton_append,
      commentEnd_infix_append_feed_iff, commentEnd_infix_commentRow_iff, List.exists_mem_cons_iff]
    exact or_congr_right ih

/-- Joined by line feeds, every row but the last is followed by one. -/
theorem intercalate_cons_concat (first last : List Char) (rows : List (List Char)) :
    ['\n'].intercalate (first :: rows ++ [last]) = first ++ '\n' :: (rows.flatMap (· ++ ['\n']) ++ last) := by
  induction rows generalizing first with
  | nil => simp
  | cons row rest ih => simp [List.intercalate_cons_cons, ← ih row]

namespace JavaField

variable {f : JavaField} {description : String}

/-- The lines of the comment above the field. -/
def commentBlock (f : JavaField) : List String :=
  f.commentLines.map (indent 1)

/-- The comment above the field, as it stands in a source. -/
def commentText (f : JavaField) : String :=
  "\n".intercalate f.commentBlock

/-- A line of a description is written behind a star, without the white space at its end. -/
theorem indent_trimEnd_star (line : List Char) :
    indent 1 (trimEnd (" * " ++ String.ofList line)) = String.ofList (commentRow line) := by
  have hline : (" * " ++ String.ofList line).toList = [' '] ++ '*' :: (' ' :: line) := by simp
  have htrimmed : trimEnd (" * " ++ String.ofList line) = String.ofList ([' ', '*'] ++ trimEndChars (' ' :: line)) := by
    rw [trimEnd, hline, trimEndChars, List.reverse_append, List.reverse_cons, List.append_assoc, List.singleton_append,
      dropWhile_append_cons (by decide), List.reverse_append, List.reverse_cons, List.reverse_reverse]
    rfl
  have hne : trimEnd (" * " ++ String.ofList line) ≠ "" := by
    rw [htrimmed, Ne, String.ofList_eq_empty_iff]
    exact List.cons_ne_nil _ _
  rw [indent, if_neg hne, htrimmed, ← String.ofList_append]
  rfl

/-- The comment has a line for each line of the description, between the line that opens and the line that closes it. -/
theorem commentBlock_eq (h : nonBlank? f.description = some description) :
    f.commentBlock
      = "    /**" :: (lineChars description.toList).map (String.ofList ∘ commentRow) ++ ["     */"] := by
  have hrows : ((lines description).map fun line => trimEnd (" * " ++ line)).map (indent 1)
      = (lineChars description.toList).map (String.ofList ∘ commentRow) := by
    rw [lines, List.map_map, List.map_map]
    apply List.map_congr_left
    intro line _
    simp only [Function.comp_apply]
    exact indent_trimEnd_star line
  rw [commentBlock, commentLines, h]
  show (["/**"] ++ (lines description).map (fun line => trimEnd (" * " ++ line)) ++ [" */"]).map (indent 1) = _
  rw [List.map_append, List.map_append, hrows]
  rfl

/-- The text of the comment opens it, goes on with the lines of the description, and closes it. -/
theorem toList_commentText (h : nonBlank? f.description = some description) :
    f.commentText.toList
      = List.replicate 4 ' ' ++ ['/', '*'] ++ commentBody (lineChars description.toList) ++ commentEnd := by
  have hfirst : "    /**".toList = List.replicate 4 ' ' ++ ['/', '*'] ++ ['*'] := by decide
  have hlast : "     */".toList = List.replicate 5 ' ' ++ commentEnd := by decide
  have hrows : ((lineChars description.toList).map (String.ofList ∘ commentRow)).map String.toList
      = (lineChars description.toList).map commentRow := by
    simp
  rw [commentText, String.toList_intercalate, commentBlock_eq h, List.map_append, List.map_cons, hrows]
  show ['\n'].intercalate ("    /**".toList :: (lineChars description.toList).map commentRow ++ ["     */".toList]) = _
  rw [intercalate_cons_concat, hfirst, hlast, List.flatMap_map, commentBody]
  simp only [List.append_assoc, List.cons_append]

/-- The comment above a field is one comment exactly when the description has no characters that close it. -/
theorem isOneComment_commentText_iff (h : nonBlank? f.description = some description) :
    IsOneComment f.commentText ↔ ¬commentEnd <:+: description.toList := by
  have hgap : ∀ c ∈ List.replicate 4 ' ', Token.isGap c = true := by
    intro c hc
    rw [List.eq_of_mem_replicate hc]
    decide
  rw [isOneComment_iff hgap (toList_commentText h), commentEnd_infix_commentBody_iff]
  exact not_congr (commentEnd_infix_append_iff_lineChars [] description.toList).symm

/-- The comment above a field shows the lines of the description, without the white space at their ends. -/
theorem shownLines?_commentText (h : nonBlank? f.description = some description) :
    shownLines? f.commentText = some ((lines description).map trimEnd) := by
  have hrow : ∀ line ∈ lineChars description.toList,
      cutLines ((String.ofList ∘ commentRow) line) = [(String.ofList ∘ commentRow) line] := by
    intro line hline
    apply cutLines_of_not_mem
    rw [Function.comp_apply, String.toList_ofList]
    exact not_mem_commentRow (not_mem_lineChars hline)
  have hcut : cutLines f.commentText
      = "    /**" :: (lineChars description.toList).map (String.ofList ∘ commentRow) ++ ["     */"] := by
    rw [commentText, commentBlock_eq h, cutLines_intercalate (by simp), List.flatMap_append, List.flatMap_cons,
      List.flatMap_map, List.flatMap_congr hrow, ← List.map_eq_flatMap]
    rfl
  have hread : (fun line : String => (behindStar? line.toList).map String.ofList) ∘ (String.ofList ∘ commentRow)
      = fun line => pure (trimEnd (String.ofList line)) := by
    funext line
    simp [behindStar?_commentRow, trimEnd]
  rw [shownLines?, hcut, List.cons_append, List.tail_cons, List.dropLast_concat, List.mapM_map, hread, List.mapM_pure,
    lines, List.map_map]
  rfl

end JavaField

/-! ## Comments in a class -/

namespace JavaClass

variable {c : JavaClass} {f : JavaField}

/-- The lines of a field stand in the class in one piece. -/
theorem fieldLines_infix_lines (hf : f ∈ c.fields) : f.fieldLines <:+: c.lines := by
  have hfields : f.fieldLines <:+: joinSections (c.fields.map (·.fieldLines)) :=
    (inOrder_joinSections _).isInfix (List.mem_map_of_mem hf)
  have hsection : joinSections (c.fields.map (·.fieldLines)) <:+: c.fieldSection := by
    rw [fieldSection]
    exact List.infix_append _ _ _
  have hbody : c.fieldSection <:+: joinSections (c.sections.filter (!·.isEmpty)) :=
    (inOrder_joinSections_filter c.sections).isInfix (by simp [sections])
  have hlines : joinSections (c.sections.filter (!·.isEmpty)) <:+: c.lines := by
    rw [lines, List.append_assoc]
    exact List.infix_append _ _ _
  exact hfields.trans (hsection.trans (hbody.trans hlines))

end JavaClass

section Assembled

variable {σ : Type} [PrimeSource σ] {model : Metamodel} {options : GenerationOptions} {c : ClassModel}
  {primes primes' : σ} {artifact : JavaClass}

/-- Each attribute has a field with its description. -/
theorem FieldsFit.exists_described (h : FieldsFit options c artifact) {a : Attribute} (ha : a ∈ c.attributes) :
    ∃ f ∈ artifact.fields, f.name = a.name ∧ f.description = a.description := by
  obtain ⟨f, hf, hfield, hname, -⟩ := exists_mem_right_of_forall₂ h.fields ha
  obtain ⟨_, _, _, _, -, -, -, -, rfl⟩ := JavaField.exists_uses_of_ofAttribute_eq_ok hfield
  exact ⟨_, hf, hname, rfl⟩

/-- **Descriptions in comments.** When a class can be assembled, what stands above the field of an attribute with a
description shows the lines of the description, without the white space at their ends. It is one comment, opened by its
first line and closed by its last, exactly when the description has no star in front of a slash. -/
theorem description_in_one_comment_iff (h : assemble model options c primes = (.ok artifact, primes')) {a : Attribute}
    (ha : a ∈ c.attributes) {description : String} (hdescription : nonBlank? a.description = some description) :
    ∃ f ∈ artifact.fields, f.name = a.name
      ∧ f.commentBlock <+: f.fieldLines ∧ f.fieldLines <:+: artifact.lines
      ∧ shownLines? f.commentText = some ((lines description).map trimEnd)
      ∧ (IsOneComment f.commentText ↔ ¬commentEnd <:+: description.toList) := by
  obtain ⟨f, hf, hname, hsame⟩ := (fieldsFit_of_assemble_eq_ok h).exists_described ha
  rw [← hsame] at hdescription
  have hfront : f.commentBlock <+: f.fieldLines := by
    simp only [JavaField.fieldLines, List.append_assoc]
    exact List.prefix_append _ _
  exact ⟨f, hf, hname, hfront, JavaClass.fieldLines_infix_lines hf, JavaField.shownLines?_commentText hdescription,
    JavaField.isOneComment_commentText_iff hdescription⟩

end Assembled

/-- A tag whose label is described. -/
def describedTag (description : String) : ClassModel :=
  { ClassModel.empty "Tag" .bean with
    attributes := [{ Attribute.plain "label" "String" with description := some description }] }

/-- What opens a comment may stand in it, and so may a star and a slash that do not follow each other. -/
theorem description_in_one_comment_opening :
    ∃ (artifact : JavaClass) (primes : PrimeSupply) (f : JavaField),
      assemble (Metamodel.empty "shop") .standard (describedTag "Text /* of the tag  \n\n* one / two")
          (PrimeSupply.fixed .standard) = (.ok artifact, primes)
        ∧ f ∈ artifact.fields
        ∧ f.commentBlock = ["    /**", "     * Text /* of the tag", "     *", "     * * one / two", "     */"]
        ∧ shownLines? f.commentText = some ["Text /* of the tag", "", "* one / two"]
        ∧ IsOneComment f.commentText := by
  obtain ⟨artifact, primes, hassemble, hsummary⟩ :=
    exists_ok_of_summary
      (assemble (Metamodel.empty "shop") .standard (describedTag "Text /* of the tag  \n\n* one / two")
        (PrimeSupply.fixed .standard))
      (fun artifact => artifact.fields.map (·.commentBlock))
      (b := [["    /**", "     * Text /* of the tag", "     *", "     * * one / two", "     */"]])
      (by decide +kernel)
  have hdescription : nonBlank? (some "Text /* of the tag  \n\n* one / two")
      = some "Text /* of the tag  \n\n* one / two" := by
    decide +kernel
  obtain ⟨f, hf, -, -, -, hshown, hone⟩ :=
    description_in_one_comment_iff hassemble (List.mem_singleton.mpr rfl) hdescription
  obtain ⟨g, hfields, hblock⟩ := List.map_eq_singleton_iff.mp hsummary
  obtain rfl : f = g := by simpa [hfields] using hf
  refine ⟨artifact, primes, f, hassemble, hf, hblock, ?_, hone.mpr (by decide +kernel)⟩
  rw [hshown]
  decide +kernel

/-- What closes a comment closes it early, and the class is assembled nevertheless. -/
theorem description_closes_comment :
    ∃ (artifact : JavaClass) (primes : PrimeSupply) (f : JavaField),
      assemble (Metamodel.empty "shop") .standard (describedTag "one */ two") (PrimeSupply.fixed .standard)
          = (.ok artifact, primes)
        ∧ artifact.fields = [f]
        ∧ f.description = some "one */ two"
        ∧ f.commentText = "    /**\n     * one */ two\n     */"
        ∧ ¬IsOneComment f.commentText := by
  obtain ⟨artifact, primes, hassemble, hsummary⟩ :=
    exists_ok_of_summary
      (assemble (Metamodel.empty "shop") .standard (describedTag "one */ two") (PrimeSupply.fixed .standard))
      (fun artifact => artifact.fields.map fun f => (f.description, f.commentText))
      (b := [(some "one */ two", "    /**\n     * one */ two\n     */")])
      (by decide +kernel)
  obtain ⟨f, hfields, hf⟩ := List.map_eq_singleton_iff.mp hsummary
  rw [Prod.mk.injEq] at hf
  obtain ⟨hdescription, htext⟩ := hf
  refine ⟨artifact, primes, f, hassemble, hfields, hdescription, htext, ?_⟩
  have hshown : nonBlank? f.description = some "one */ two" := by
    rw [hdescription]
    decide +kernel
  rw [JavaField.isOneComment_commentText_iff hshown, not_not]
  decide +kernel

end EntityForge
