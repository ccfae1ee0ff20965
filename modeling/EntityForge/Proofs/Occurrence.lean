import EntityForge.JavaClass.Source
import Mathlib.Data.List.Forall2

/-!
# Runs of lines

Several runs of lines stand in a longer list of lines when each occurs in one piece, one after the other and without
overlap (`InOrder`). Such runs can be looked for in parts: a list that is put together from others holds what these hold.

A text is read back as lines by cutting it at its line feeds (`Text.cutLines`). What a layout writes as a line is cut
further when it has line feeds in it; the lines of a block never have.
-/

namespace EntityForge

/-! ## Runs in order -/

/-- The runs occur in the list, each in one piece and one after the other, with anything before, between and after
them. -/
inductive InOrder {α : Type} : List (List α) → List α → Prop
  | nil (after : List α) : InOrder [] after
  | cons (before run : List α) {runs : List (List α)} {after : List α} (rest : InOrder runs after) :
      InOrder (run :: runs) (before ++ (run ++ after))

namespace InOrder

variable {α β : Type} {runs runs' : List (List α)} {list list' : List α}

/-- The runs may come after anything. -/
theorem after_gap (gap : List α) (h : InOrder runs list) : InOrder runs (gap ++ list) := by
  cases h with
  | nil => exact .nil _
  | cons before run rest =>
    rw [← List.append_assoc]
    exact .cons (gap ++ before) run rest

/-- The runs of one list are followed by those of the next. -/
theorem append (h : InOrder runs list) (h' : InOrder runs' list') :
    InOrder (runs ++ runs') (list ++ list') := by
  induction h with
  | nil after => exact h'.after_gap after
  | cons before run _ ih =>
    rw [List.append_assoc, List.append_assoc]
    exact .cons before run ih

theorem single (run : List α) : InOrder [run] run := by
  have h := InOrder.cons [] run (.nil [])
  rw [List.nil_append, List.append_nil] at h
  exact h

/-- A run in which other runs occur stands for these. -/
theorem refine {parts : List (List (List α))} (hparts : List.Forall₂ InOrder parts runs)
    (h : InOrder runs list) : InOrder parts.flatten list := by
  induction h generalizing parts with
  | nil after =>
    cases hparts
    exact .nil after
  | cons before run _ ih =>
    cases hparts with
    | cons hrun hrest =>
      rw [List.flatten_cons]
      exact (hrun.append (ih hrest)).after_gap before

/-- When every element is replaced by a list, the runs still occur with their elements replaced. -/
theorem flatMap (f : α → List β) (h : InOrder runs list) :
    InOrder (runs.map (·.flatMap f)) (list.flatMap f) := by
  induction h with
  | nil after => exact .nil _
  | cons before run _ ih =>
    rw [List.map_cons, List.flatMap_append, List.flatMap_append]
    exact .cons _ _ ih

/-- Lists put together occur one after the other. -/
theorem flatten (lists : List (List α)) : InOrder lists lists.flatten := by
  induction lists with
  | nil => exact .nil []
  | cons list rest ih =>
    rw [List.flatten_cons]
    exact (single list).append ih

/-- Each run stands in the list in one piece. -/
theorem isInfix (h : InOrder runs list) {run : List α} (hrun : run ∈ runs) : run <:+: list := by
  induction h with
  | nil => cases hrun
  | cons before first _ ih =>
    rcases List.mem_cons.mp hrun with rfl | hrun
    · rw [← List.append_assoc]
      exact List.infix_append _ _ _
    · exact ((ih hrun).trans (List.suffix_append _ _).isInfix).trans (List.suffix_append _ _).isInfix

/-- What stands in a run stands in the list. -/
theorem mem (h : InOrder runs list) {run : List α} (hrun : run ∈ runs) {x : α} (hx : x ∈ run) : x ∈ list :=
  (h.isInfix hrun).subset hx

end InOrder

/-! ## Sections -/

namespace Layout

/-- Joining puts something between a section and those after it. -/
theorem exists_joinSections_cons (lines : List String) (rest : List (List String)) :
    ∃ gap, joinSections (lines :: rest) = lines ++ (gap ++ joinSections rest) := by
  cases rest with
  | nil => exact ⟨[], by simp [joinSections]⟩
  | cons next others => exact ⟨[""], rfl⟩

/-- Joined sections occur in their order. -/
theorem inOrder_joinSections (sections : List (List String)) :
    InOrder sections (joinSections sections) := by
  induction sections with
  | nil => exact .nil []
  | cons lines rest ih =>
    obtain ⟨gap, hjoin⟩ := exists_joinSections_cons lines rest
    rw [hjoin]
    exact (InOrder.single lines).append (ih.after_gap gap)

/-- Sections without lines may be left out: what occurs in them occurs anywhere. -/
theorem inOrder_joinSections_filter (sections : List (List String)) :
    InOrder sections (joinSections (sections.filter (!·.isEmpty))) := by
  induction sections with
  | nil => exact .nil []
  | cons lines rest ih =>
    cases lines with
    | nil => exact (InOrder.single []).append ih
    | cons line others =>
      obtain ⟨gap, hjoin⟩ :=
        exists_joinSections_cons (line :: others) (rest.filter (!·.isEmpty))
      show InOrder _ (joinSections ((line :: others) :: rest.filter (!·.isEmpty)))
      rw [hjoin]
      exact (InOrder.single (line :: others)).append (ih.after_gap gap)

end Layout

/-! ## Lines of a text -/

namespace Text

/-- The pieces of a text between its line feeds. -/
def cutLines (s : String) : List String :=
  (s.toList.splitOn '\n').map String.ofList

/-- A text without line feeds is one line. -/
theorem cutLines_of_not_mem {s : String} (h : '\n' ∉ s.toList) : cutLines s = [s] := by
  rw [cutLines, List.splitOn_eq_singleton h, List.map_singleton, String.ofList_toList]

/-- Lists with a separator between them are cut apart at the separators, and each where it has separators itself. -/
theorem splitOn_intercalate {parts : List (List Char)} (h : parts ≠ []) :
    (['\n'].intercalate parts).splitOn '\n' = parts.flatMap (·.splitOn '\n') := by
  induction parts with
  | nil => exact absurd rfl h
  | cons part rest ih =>
    cases rest with
    | nil => simp
    | cons next others =>
      rw [List.intercalate_cons_cons, List.append_assoc, List.singleton_append, List.splitOn_append_cons_self,
        ih (List.cons_ne_nil next others)]
      rfl

/-- Texts with line feeds between them are cut apart there, and each where it has line feeds itself. -/
theorem cutLines_intercalate {ls : List String} (h : ls ≠ []) :
    cutLines ("\n".intercalate ls) = ls.flatMap cutLines := by
  have hparts : ls.map String.toList ≠ [] := by simpa using h
  rw [cutLines, String.toList_intercalate]
  show ((['\n'].intercalate (ls.map String.toList)).splitOn '\n').map String.ofList = _
  rw [splitOn_intercalate hparts, List.flatMap_map, List.map_flatMap]
  rfl

/-- The text of lines is cut into these lines, and each where it has line feeds itself. Nothing is behind the last
line. -/
theorem cutLines_unlines {ls : List String} (h : ls ≠ []) :
    cutLines (unlines ls) = ls.flatMap cutLines ++ [""] := by
  have hlines : (unlines ls).toList = ("\n".intercalate ls).toList ++ '\n' :: [] := by
    rw [unlines, String.toList_append]
    rfl
  rw [cutLines, hlines, List.splitOn_append_cons_self, List.map_append, ← cutLines_intercalate h]
  rfl

/-- The characters without a carriage return at their end. -/
def withoutReturn (cs : List Char) : List Char :=
  if cs.getLast? = some '\r' then cs.dropLast else cs

/-- The rows of a text: the pieces in front of its line feeds, without carriage returns at their ends, and what is behind
the last line feed, if there is anything. -/
def rowsOf (cs : List Char) : List (List Char) :=
  (cs.splitOn '\n').dropLast.map withoutReturn ++ (cs.splitOn '\n').getLast?.toList.filter (· ≠ [])

/-- A character in front of a piece stays there, unless it is a carriage return at the end. -/
theorem withoutReturn_cons {c : Char} {cs : List Char} (h : cs = [] → c ≠ '\r') :
    withoutReturn (c :: cs) = c :: withoutReturn cs := by
  cases cs with
  | nil => simp [withoutReturn, h rfl]
  | cons d rest =>
    by_cases hlast : (d :: rest).getLast? = some '\r'
    · simp [withoutReturn, List.getLast?_cons_cons, hlast]
    · simp [withoutReturn, List.getLast?_cons_cons, hlast]

/-- What is in front of a line feed is a row. -/
theorem rowsOf_append_feed {piece : List Char} (h : '\n' ∉ piece) (rest : List Char) :
    rowsOf (piece ++ '\n' :: rest) = withoutReturn piece :: rowsOf rest := by
  have hne : rest.splitOn '\n' ≠ [] := List.splitOn_ne_nil _ _
  have hpieces : (piece ++ '\n' :: rest).splitOn '\n' = piece :: rest.splitOn '\n' := by
    rw [List.splitOn_append_cons_self, List.splitOn_eq_singleton h, List.singleton_append]
  rw [rowsOf, rowsOf, hpieces, List.dropLast_cons_of_ne_nil hne, List.getLast?_cons_of_ne_nil hne]
  rfl

/-- Without a line feed, all characters are one row, if there are any. -/
theorem rowsOf_of_not_mem {cs : List Char} (h : '\n' ∉ cs) : rowsOf cs = [cs].filter (· ≠ []) := by
  rw [rowsOf, List.splitOn_eq_singleton h]
  rfl

theorem lineChars_append_feed {piece : List Char} (h : '\n' ∉ piece) (rest : List Char) :
    lineChars (piece ++ '\n' :: rest) = withoutReturn piece :: lineChars rest := by
  induction piece with
  | nil => rw [List.nil_append, lineChars]; rfl
  | cons c others ih =>
    rw [List.mem_cons, not_or] at h
    have hfeed : c ≠ '\n' := fun hc => h.1 hc.symm
    by_cases hreturn : others = [] ∧ c = '\r'
    · obtain ⟨rfl, rfl⟩ := hreturn
      show lineChars ('\r' :: '\n' :: rest) = _
      rw [lineChars]
      rfl
    · have hothers : ∀ after, c = '\r' → others ++ '\n' :: rest = '\n' :: after → False := by
        intro after hc heq
        cases others with
        | nil => exact hreturn ⟨rfl, hc⟩
        | cons d more => exact h.2 (by simp [(List.cons.inj heq).1])
      rw [List.cons_append, lineChars.eq_4 c _ hfeed hothers, ih h.2,
        withoutReturn_cons fun hnil hc => hreturn ⟨hnil, hc⟩]

theorem lineChars_of_not_mem {cs : List Char} (h : '\n' ∉ cs) : lineChars cs = [cs].filter (· ≠ []) := by
  induction cs with
  | nil => rfl
  | cons c rest ih =>
    rw [List.mem_cons, not_or] at h
    have hfeed : c ≠ '\n' := fun hc => h.1 hc.symm
    have hrest : ∀ after, c = '\r' → rest = '\n' :: after → False := by
      rintro after - rfl
      exact h.2 List.mem_cons_self
    rw [lineChars.eq_4 c rest hfeed hrest, ih h.2]
    cases rest <;> rfl

/-- The lines of a text are its rows. -/
theorem lineChars_eq_rowsOf (cs : List Char) : lineChars cs = rowsOf cs := by
  induction hlength : cs.length using Nat.strongRecOn generalizing cs with
  | ind n ih =>
    by_cases hmem : '\n' ∈ cs
    · obtain ⟨piece, rest, rfl, hpiece⟩ := List.eq_append_cons_of_mem hmem
      have hshorter : rest.length < n := by
        rw [← hlength, List.length_append, List.length_cons]
        omega
      rw [lineChars_append_feed hpiece, rowsOf_append_feed hpiece, ih rest.length hshorter rest rfl]
    · rw [lineChars_of_not_mem hmem, rowsOf_of_not_mem hmem]

/-- The lines of a text have no line feeds. -/
theorem not_mem_lineChars {cs line : List Char} (h : line ∈ lineChars cs) : '\n' ∉ line := by
  induction cs using lineChars.induct generalizing line with
  | case1 => exact absurd h (by simp [lineChars])
  | case2 rest ih =>
    rw [lineChars, List.mem_cons] at h
    rcases h with rfl | h
    · simp
    · exact ih h
  | case3 rest ih =>
    rw [lineChars, List.mem_cons] at h
    rcases h with rfl | h
    · simp
    · exact ih h
  | case4 c rest hfeed hreturn hrest _ =>
    rw [lineChars.eq_4 c rest hfeed hreturn, hrest, List.mem_singleton] at h
    rw [h, List.mem_singleton]
    exact fun hc => hfeed hc.symm
  | case5 c rest hfeed hreturn first more hrest ih =>
    rw [lineChars.eq_4 c rest hfeed hreturn, hrest, List.mem_cons] at h
    rw [hrest] at ih
    rcases h with rfl | h
    · rw [List.mem_cons, not_or]
      exact ⟨fun hc => hfeed hc.symm, ih List.mem_cons_self⟩
    · exact ih (List.mem_cons_of_mem first h)

/-- The lines of a text stay as they are when they are moved in and cut at line feeds. -/
theorem cutLines_block (depth : Nat) (text : String) :
    (Layout.block depth text).flatMap cutLines = Layout.block depth text := by
  have hline : ∀ line ∈ Layout.block depth text, cutLines line = [line] := by
    intro line hline
    obtain ⟨part, hpart, rfl⟩ := List.mem_map.mp hline
    obtain ⟨chars, hchars, rfl⟩ := List.mem_map.mp hpart
    apply cutLines_of_not_mem
    unfold Layout.indent
    split
    · simp
    · rw [String.toList_append, String.toList_ofList, String.toList_ofList, List.mem_append, not_or]
      refine ⟨?_, not_mem_lineChars hchars⟩
      intro hblank
      exact absurd (List.eq_of_mem_replicate hblank) (by decide)
  rw [List.flatMap_congr hline]
  exact List.flatMap_singleton' _

end Text

end EntityForge
