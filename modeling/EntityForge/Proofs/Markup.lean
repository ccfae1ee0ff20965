import EntityForge.Generation.PersistenceUnit

/-!
# Reading markup

A reader of markup cuts a document before each `<` into tags with the texts behind them, and puts back the characters
that escaped texts only name. What is printed with plain names is read again as it was, whatever its texts and the
values of its attributes are.

Main statements: `unescape?_text`, `unescape?_attributeText`, `read?_print`.
-/

namespace EntityForge.Xml

/-! ## Escaped texts -/

/-- The character that a name stands for, between `&` and `;`. -/
def named? : List Char → Option Char
  | ['a', 'm', 'p'] => some '&'
  | ['l', 't'] => some '<'
  | ['g', 't'] => some '>'
  | ['q', 'u', 'o', 't'] => some '"'
  | ['a', 'p', 'o', 's'] => some '\x27'
  | _ => none

/-- The characters that an escaped text stands for. Inside a name, its first characters are kept, the last one first. -/
def unescapeChars? : Option (List Char) → List Char → Option (List Char)
  | none, [] => some []
  | some _, [] => none
  | none, c :: rest =>
    if c = '&' then unescapeChars? (some []) rest
    else (unescapeChars? none rest).map (c :: ·)
  | some name, c :: rest =>
    if c = ';' then do
      let named ← named? name.reverse
      (unescapeChars? none rest).map (named :: ·)
    else unescapeChars? (some (c :: name)) rest

/-- The text that escaped characters stand for, if all names among them are known. -/
def unescape? (cs : List Char) : Option String :=
  (unescapeChars? none cs).map String.ofList

/-- A character of a text is read again. -/
theorem unescapeChars?_textChar (c : Char) (rest : List Char) :
    unescapeChars? none (textChar c ++ rest) = (unescapeChars? none rest).map (c :: ·) := by
  unfold textChar
  split
  -- A character that stands for itself; in the other cases a name is read up to its end.
  case h_4 hand _ _ =>
    have hne : c ≠ '&' := hand
    rw [List.singleton_append, unescapeChars?, if_neg hne]
  all_goals simp [unescapeChars?, named?]

/-- A character of the value of an attribute is read again. -/
theorem unescapeChars?_attributeChar (c : Char) (rest : List Char) :
    unescapeChars? none (attributeChar c ++ rest) = (unescapeChars? none rest).map (c :: ·) := by
  unfold attributeChar
  split
  · simp [unescapeChars?, named?]
  · exact unescapeChars?_textChar c rest

/-- Where each character is read again, a text is. -/
theorem unescapeChars?_flatMap {escape : Char → List Char}
    (h : ∀ c rest, unescapeChars? none (escape c ++ rest) = (unescapeChars? none rest).map (c :: ·))
    (cs : List Char) : unescapeChars? none (cs.flatMap escape) = some cs := by
  induction cs with
  | nil => rfl
  | cons c rest ih => rw [List.flatMap_cons, h, ih, Option.map_some]

/-- An escaped text stands for the text. -/
theorem unescape?_text (s : String) : unescape? (text s).toList = some s := by
  simp [unescape?, text, unescapeChars?_flatMap unescapeChars?_textChar]

/-- An escaped value of an attribute stands for the value. -/
theorem unescape?_attributeText (s : String) : unescape? (attributeText s).toList = some s := by
  simp [unescape?, attributeText, unescapeChars?_flatMap unescapeChars?_attributeChar]

theorem notMem_textChar (c : Char) : '<' ∉ textChar c ∧ '>' ∉ textChar c := by
  unfold textChar
  split
  case h_4 _ hlt hgt => exact ⟨by simpa using Ne.symm hlt, by simpa using Ne.symm hgt⟩
  all_goals decide +kernel

theorem notMem_attributeChar (c : Char) :
    '<' ∉ attributeChar c ∧ '>' ∉ attributeChar c ∧ '"' ∉ attributeChar c := by
  unfold attributeChar
  split
  · decide +kernel
  · next hquote =>
    refine ⟨(notMem_textChar c).1, (notMem_textChar c).2, ?_⟩
    unfold textChar
    split
    case h_4 => simpa using Ne.symm hquote
    all_goals decide +kernel

/-- An escaped text has no brackets. -/
theorem notMem_text (s : String) : '<' ∉ (text s).toList ∧ '>' ∉ (text s).toList := by
  simp only [text, String.toList_ofList, List.mem_flatMap]
  exact ⟨fun ⟨c, _, h⟩ => (notMem_textChar c).1 h, fun ⟨c, _, h⟩ => (notMem_textChar c).2 h⟩

/-- An escaped value of an attribute has neither brackets nor quotes. -/
theorem notMem_attributeText (s : String) :
    '<' ∉ (attributeText s).toList ∧ '>' ∉ (attributeText s).toList ∧ '"' ∉ (attributeText s).toList := by
  simp only [attributeText, String.toList_ofList, List.mem_flatMap]
  exact ⟨fun ⟨c, _, h⟩ => (notMem_attributeChar c).1 h, fun ⟨c, _, h⟩ => (notMem_attributeChar c).2.1 h,
    fun ⟨c, _, h⟩ => (notMem_attributeChar c).2.2 h⟩

/-! ## Tags -/

/-- What stands between two brackets. -/
inductive Tag where
  /-- An instruction to the reader, between question marks. -/
  | instruction (content : String)
  | opening (name : String) (attributes : List (String × String))
  | closing (name : String)
  deriving DecidableEq

/-- Whether a name has none of the characters that tell the parts of a tag apart. -/
def isPlain (name : String) : Bool :=
  name.toList.all (· ∉ ['<', '>', '"', '/', '?', ' '])

theorem notMem_of_isPlain {name : String} (h : isPlain name = true) {c : Char}
    (hc : c ∈ ['<', '>', '"', '/', '?', ' ']) : c ∉ name.toList := by
  intro hmem
  have hplain := List.all_eq_true.mp h c hmem
  exact of_decide_eq_true hplain hc

/-- The characters of attributes in a tag. -/
def attributesChars : List (String × String) → List Char
  | [] => []
  | (key, value) :: rest =>
    ' ' :: (key.toList ++ ['=']) ++ '"' :: ((attributeText value).toList ++ '"' :: attributesChars rest)

theorem attributesChars_eq_flatMap (attributes : List (String × String)) :
    attributesChars attributes
      = attributes.flatMap fun a => (" " ++ a.1 ++ "=\"" ++ attributeText a.2 ++ "\"").toList := by
  induction attributes with
  | nil => rfl
  | cons a rest ih =>
    rw [List.flatMap_cons, ← ih]
    simp [attributesChars]

theorem notMem_attributesChars {attributes : List (String × String)} (h : ∀ a ∈ attributes, isPlain a.1 = true)
    {c : Char} (hc : c = '<' ∨ c = '>') : c ∉ attributesChars attributes := by
  induction attributes with
  | nil => exact List.not_mem_nil
  | cons a rest ih =>
    obtain ⟨key, value⟩ := a
    obtain ⟨hkey, hrest⟩ := List.forall_mem_cons.mp h
    have hnot := ih hrest
    obtain ⟨hlt, hgt, -⟩ := notMem_attributeText value
    rcases hc with rfl | rfl
    · have hname : '<' ∉ key.toList := notMem_of_isPlain hkey (by simp)
      simp [attributesChars, hname, hlt, hnot]
    · have hname : '>' ∉ key.toList := notMem_of_isPlain hkey (by simp)
      simp [attributesChars, hname, hgt, hnot]

namespace Tag

/-- The tag as it is printed. -/
def print : Tag → String
  | instruction content => "<?" ++ content ++ "?>"
  | opening name attributes => openTag name attributes
  | closing name => closeTag name

/-- The characters of a tag between its brackets. -/
def chars : Tag → List Char
  | instruction content => '?' :: (content.toList ++ ['?'])
  | opening name attributes => name.toList ++ attributesChars attributes
  | closing name => '/' :: name.toList

/-- Whether no name in a tag can be mistaken for more than a name. -/
def isPlain : Tag → Bool
  | instruction content => content.toList.all (· ∉ ['<', '>'])
  | opening name attributes => Xml.isPlain name && attributes.all (Xml.isPlain ·.1)
  | closing name => Xml.isPlain name

theorem toList_print (tag : Tag) : tag.print.toList = '<' :: (tag.chars ++ ['>']) := by
  cases tag with
  | instruction content => simp [print, chars]
  | opening name attributes =>
    have hopen : (openTag name attributes).toList = '<' :: (name.toList ++ attributesChars attributes ++ ['>']) := by
      rw [openTag, String.toList_append, String.toList_append, String.toList_append, String.toList_join,
        List.flatMap_map, attributesChars_eq_flatMap]
      rfl
    rw [print, hopen, chars]
  | closing name => simp [print, chars, closeTag]

/-- A tag with plain names has no other brackets than its own. -/
theorem notMem_chars {tag : Tag} (h : tag.isPlain = true) {c : Char} (hc : c = '<' ∨ c = '>') : c ∉ tag.chars := by
  have hname : ∀ name : String, Xml.isPlain name = true → c ∉ name.toList := by
    intro name hplain
    rcases hc with rfl | rfl
    · exact notMem_of_isPlain hplain (by simp)
    · exact notMem_of_isPlain hplain (by simp)
  cases tag with
  | instruction content =>
    have hcontent : c ∉ content.toList := by
      intro hmem
      refine of_decide_eq_true (List.all_eq_true.mp h c hmem) ?_
      rcases hc with rfl | rfl <;> simp
    rcases hc with rfl | rfl <;> simp [chars, hcontent]
  | opening name attributes =>
    obtain ⟨hplain, hkeys⟩ := Bool.and_eq_true_iff.mp h
    rw [chars, List.mem_append, not_or]
    exact ⟨hname name hplain, notMem_attributesChars (List.all_eq_true.mp hkeys) hc⟩
  | closing name =>
    have hchars := hname name h
    rcases hc with rfl | rfl <;> simp [chars, hchars]

end Tag

/-- The attributes in the characters behind the name of a tag, which are cut at each quote. -/
def readAttributes? : List (List Char) → Option (List (String × String))
  | [[]] => some []
  | (' ' :: key) :: value :: rest => do
    let value ← unescape? value
    let others ← readAttributes? rest
    if key.getLast? = some '=' then some ((.ofList key.dropLast, value) :: others) else none
  | _ => none

/-- The tag of the characters between two brackets. -/
def readTag? : List Char → Option Tag
  | '?' :: content =>
    if content.getLast? = some '?' then some (.instruction (.ofList content.dropLast)) else none
  | '/' :: name => some (.closing (.ofList name))
  | cs => do
    let attributes ← readAttributes? ((cs.dropWhile (· ≠ ' ')).splitOn '"')
    some (.opening (.ofList (cs.takeWhile (· ≠ ' '))) attributes)

/-- Attributes with plain names are read again. -/
theorem readAttributes?_attributesChars {attributes : List (String × String)}
    (h : ∀ a ∈ attributes, isPlain a.1 = true) :
    readAttributes? ((attributesChars attributes).splitOn '"') = some attributes := by
  induction attributes with
  | nil => rfl
  | cons a rest ih =>
    obtain ⟨key, value⟩ := a
    obtain ⟨hkey, hrest⟩ := List.forall_mem_cons.mp h
    have hbefore : '"' ∉ ' ' :: (key.toList ++ ['=']) := by
      simpa using notMem_of_isPlain hkey (by simp)
    rw [attributesChars, List.splitOn_append_cons_self_of_not_mem hbefore,
      List.splitOn_append_cons_self_of_not_mem (notMem_attributeText value).2.2, readAttributes?,
      unescape?_attributeText, ih hrest]
    simp

/-- Behind the name of a tag, its attributes start with a blank. -/
theorem takeWhile_dropWhile_attributesChars (attributes : List (String × String)) :
    (attributesChars attributes).takeWhile (· ≠ ' ') = []
      ∧ (attributesChars attributes).dropWhile (· ≠ ' ') = attributesChars attributes := by
  cases attributes with
  | nil => exact ⟨rfl, rfl⟩
  | cons a rest => simp [attributesChars]

/-- An opening tag with a plain name starts with neither a question mark nor a slash. -/
theorem chars_opening_ne {name : String} (hname : isPlain name = true) (attributes : List (String × String)) {c : Char}
    (hc : c = '?' ∨ c = '/') (rest : List Char) : name.toList ++ attributesChars attributes ≠ c :: rest := by
  intro heq
  cases hchars : name.toList with
  | nil =>
    rw [hchars, List.nil_append] at heq
    cases attributes with
    | nil => exact absurd heq (by simp [attributesChars])
    | cons a others => rcases hc with rfl | rfl <;> simp [attributesChars] at heq
  | cons d others =>
    rw [hchars, List.cons_append, List.cons.injEq] at heq
    have hmem : c ∈ name.toList := by simp [hchars, heq.1]
    rcases hc with rfl | rfl
    · exact notMem_of_isPlain hname (by simp) hmem
    · exact notMem_of_isPlain hname (by simp) hmem

/-- A tag with plain names is read again. -/
theorem readTag?_chars {tag : Tag} (h : tag.isPlain = true) : readTag? tag.chars = some tag := by
  cases tag with
  | instruction content => simp [Tag.chars, readTag?]
  | opening name attributes =>
    obtain ⟨hname, hkeys⟩ := Bool.and_eq_true_iff.mp h
    have hblank : ∀ c ∈ name.toList, decide (c ≠ ' ') = true := by
      rintro c hc
      refine decide_eq_true ?_
      rintro rfl
      exact notMem_of_isPlain hname (by simp) hc
    obtain ⟨htake, hdrop⟩ := takeWhile_dropWhile_attributesChars attributes
    -- The first character tells that it is neither an instruction nor a closing tag.
    rw [Tag.chars, readTag?]
    · rw [List.dropWhile_append_of_pos hblank, List.takeWhile_append_of_pos hblank, htake, hdrop,
        readAttributes?_attributesChars (List.all_eq_true.mp hkeys), List.append_nil, String.ofList_toList]
      rfl
    · exact chars_opening_ne hname attributes (.inl rfl)
    · exact chars_opening_ne hname attributes (.inr rfl)
  | closing name => simp [Tag.chars, readTag?]

/-! ## Documents -/

/-- Tags and the texts behind them, as they are printed. -/
def print (pieces : List (Tag × String)) : String :=
  String.join (pieces.map fun (tag, content) => tag.print ++ text content)

theorem print_append (pieces others : List (Tag × String)) :
    print (pieces ++ others) = print pieces ++ print others := by
  simp [print]

/-- A tag and the text behind it, without the bracket before the tag. -/
def readPiece? (piece : List Char) : Option (Tag × String) :=
  match piece.splitOn '>' with
  | [tag, content] => do
    let tag ← readTag? tag
    let content ← unescape? content
    some (tag, content)
  | _ => none

/-- The tags of a document and the texts behind them. -/
def read? (document : String) : Option (List (Tag × String)) :=
  match document.toList.splitOn '<' with
  | [] :: pieces => pieces.mapM readPiece?
  | _ => none

/-- What follows each separator is cut off at the next one. -/
theorem splitOn_flatMap_cons {sep : Char} {parts : List (List Char)} (h : ∀ part ∈ parts, sep ∉ part)
    {first : List Char} (hfirst : sep ∉ first) :
    (first ++ parts.flatMap (sep :: ·)).splitOn sep = first :: parts := by
  induction parts generalizing first with
  | nil => rw [List.flatMap_nil, List.append_nil, List.splitOn_eq_singleton hfirst]
  | cons part rest ih =>
    obtain ⟨hpart, hrest⟩ := List.forall_mem_cons.mp h
    rw [List.flatMap_cons, List.cons_append, List.splitOn_append_cons_self_of_not_mem hfirst, ih hrest hpart]

/-- The elements of a name, each with its attributes and the text behind its opening tag. -/
def elements (name : String) (pieces : List (Tag × String)) : List (List (String × String) × String) :=
  pieces.filterMap fun
    | (.opening other attributes, content) => if other = name then some (attributes, content) else none
    | _ => none

theorem elements_append (name : String) (pieces others : List (Tag × String)) :
    elements name (pieces ++ others) = elements name pieces ++ elements name others :=
  List.filterMap_append

/-- The characters of a tag and of the text behind it, without the bracket before the tag. -/
def pieceChars (p : Tag × String) : List Char :=
  p.1.chars ++ '>' :: (text p.2).toList

theorem toList_print (pieces : List (Tag × String)) :
    (print pieces).toList = (pieces.map pieceChars).flatMap ('<' :: ·) := by
  simp [print, pieceChars, String.toList_join, Tag.toList_print, List.flatMap_map]

section Plain

variable {p : Tag × String} {pieces : List (Tag × String)}

theorem notMem_pieceChars (h : p.1.isPlain = true) : '<' ∉ pieceChars p := by
  simp [pieceChars, Tag.notMem_chars h (.inl rfl), (notMem_text p.2).1]

/-- A piece with plain names is read again. -/
theorem readPiece?_pieceChars (h : p.1.isPlain = true) : readPiece? (pieceChars p) = some p := by
  have hsplit : (pieceChars p).splitOn '>' = [p.1.chars, (text p.2).toList] := by
    rw [pieceChars, List.splitOn_append_cons_self_of_not_mem (Tag.notMem_chars h (.inr rfl)),
      List.splitOn_eq_singleton (notMem_text p.2).2]
  rw [readPiece?, hsplit]
  simp [readTag?_chars h, unescape?_text]

theorem mapM_readPiece?_pieceChars (h : ∀ p ∈ pieces, p.1.isPlain = true) :
    (pieces.map pieceChars).mapM readPiece? = some pieces := by
  induction pieces with
  | nil => rfl
  | cons p rest ih =>
    obtain ⟨hp, hrest⟩ := List.forall_mem_cons.mp h
    simp [readPiece?_pieceChars hp, ih hrest]

/-- What is printed with plain names is read again. -/
theorem read?_print (h : ∀ p ∈ pieces, p.1.isPlain = true) : read? (print pieces) = some pieces := by
  have hparts : ∀ cs ∈ pieces.map pieceChars, '<' ∉ cs := by
    intro cs hcs
    obtain ⟨p, hp, rfl⟩ := List.mem_map.mp hcs
    exact notMem_pieceChars (h p hp)
  have hsplit := splitOn_flatMap_cons hparts List.not_mem_nil
  rw [List.nil_append, ← toList_print] at hsplit
  rw [read?, hsplit]
  exact mapM_readPiece?_pieceChars h

end Plain

end EntityForge.Xml
