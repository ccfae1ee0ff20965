import EntityForge.Proofs.AnnotationReading
import EntityForge.Proofs.Occurrence
import EntityForge.Synthesis.Constructor

/-!
# Constructors read back

A constructor as it is taken from its text: the statements in front of the closing line, and the heading before them.
The types of parameters are written as the metamodel gives them, so that a heading may have any characters in it, line
feeds among them; it is told from the statements all the same, because it ends with a brace and they with a semicolon.

Main statement: `Signature.ofText?_text`, that the text of a constructor is read as its heading and its statements.
-/

namespace EntityForge

open Java

/-- A statement of a constructor. -/
inductive ConstructorStatement where
  /-- Passes arguments on to the constructor of the superclass. -/
  | passOn (arguments : List String)
  /-- Assigns a value to a field of the object. -/
  | assign (field value : String)
  deriving DecidableEq

/-- A constructor as it is read: what stands before its statements, and these. -/
structure ConstructorReading where
  heading : String
  statements : List ConstructorStatement
  deriving DecidableEq

/-! ## Reading -/

namespace ConstructorStatement

/-- The names between commas, up to the closing parenthesis. -/
def arguments? : List Token → Option (List String)
  | [.word cs, .mark ')'] => (identifier? cs).map ([·])
  | .word cs :: .mark ',' :: rest => do
    let name ← identifier? cs
    let others ← arguments? rest
    pure (name :: others)
  | _ => none

/-- The statement that the tokens before a semicolon write. -/
def ofTokens? : List Token → Option ConstructorStatement
  | .word ['s', 'u', 'p', 'e', 'r'] :: .mark '(' :: rest => (arguments? rest).map .passOn
  | [.word ['t', 'h', 'i', 's'], .mark '.', .word field, .mark '=', .word value] => do
    let field ← identifier? field
    let value ← identifier? value
    pure (.assign field value)
  | _ => none

/-- The statement that a line writes, if it ends with a semicolon. -/
def ofLine? (line : String) : Option ConstructorStatement :=
  line.toList.dropSuffix? [';'] >>= Token.scanFrom .between >>= ofTokens?

/-- Whether a line writes a statement. -/
def isLine (line : String) : Bool :=
  (ofLine? line).isSome

end ConstructorStatement

/-- The heading over parameters: a type and a name for each. It is one line, unless types are written on several. -/
def ConstructorReading.headingOf (access : Access) (className : String) (parameters : List Parameter) : String :=
  access.modifier ++ className ++ "(" ++ ", ".intercalate (parameters.map fun p => p.type ++ " " ++ p.name) ++ ") \x7b"

/-- The statements that pass some names on, if there are any, and assign each of the others to the field of its name. -/
def ConstructorReading.statementsOf (passedOn assigned : List String) : List ConstructorStatement :=
  (if passedOn = [] then [] else [.passOn passedOn]) ++ assigned.map fun name => .assign name name

/-- The constructor that a text writes. Its last line closes it; of the lines before that, the last ones that are
statements are its statements. -/
def ConstructorReading.ofText? (text : String) : Option ConstructorReading :=
  match (Text.cutLines text).reverse with
  | [] => none
  | last :: others =>
    if last = "\x7d" then
      some
        { heading := "\n".intercalate (others.dropWhile ConstructorStatement.isLine).reverse
          statements :=
            (others.takeWhile ConstructorStatement.isLine).reverse.filterMap ConstructorStatement.ofLine? }
    else none

/-! ## Lines of a text that is put together -/

namespace Text

/-- What is neither in the separator nor in the pieces is not in all of them together. -/
theorem not_mem_intercalate {c : Char} {sep : List Char} {pieces : List (List Char)} (hsep : c ∉ sep)
    (h : ∀ piece ∈ pieces, c ∉ piece) : c ∉ sep.intercalate pieces := by
  induction pieces with
  | nil => simp
  | cons piece rest ih =>
    rw [List.forall_mem_cons] at h
    cases rest with
    | nil => simpa using h.1
    | cons next others =>
      rw [List.intercalate_cons_cons, List.mem_append, List.mem_append, not_or, not_or]
      exact ⟨⟨h.1, hsep⟩, ih h.2⟩

/-- The lines of a text, with line feeds between them, are the text. -/
theorem intercalate_cutLines (s : String) : "\n".intercalate (cutLines s) = s := by
  rw [← String.toList_inj, String.toList_intercalate, cutLines, List.map_map]
  have hsame : String.toList ∘ String.ofList = id := funext fun cs => String.toList_ofList
  rw [hsame, List.map_id]
  exact List.intercalate_splitOn '\n'

theorem exists_splitOn_append_singleton {c : Char} (hc : c ≠ '\n') (cs : List Char) :
    ∃ front last, (cs ++ [c]).splitOn '\n' = front ++ [last ++ [c]] := by
  induction cs with
  | nil => exact ⟨[], [], List.splitOn_eq_singleton (by simpa using hc.symm)⟩
  | cons d cs ih =>
    obtain ⟨front, last, ih⟩ := ih
    rw [List.splitOn_eq_splitOnP] at ih ⊢
    rw [List.cons_append, List.splitOnP_cons_eq_if_modifyHead, ih]
    split
    · exact ⟨[] :: front, last, rfl⟩
    · cases front with
      | nil => exact ⟨[], d :: last, rfl⟩
      | cons first others => exact ⟨(d :: first) :: others, last, rfl⟩

/-- A text that ends with something other than a line feed has a last line that ends with it. -/
theorem exists_cutLines_eq_append {s : String} {c : Char} (hc : c ≠ '\n') (h : s.toList.getLast? = some c) :
    ∃ front last, cutLines s = front ++ [String.ofList (last ++ [c])] := by
  obtain ⟨cs, hcs⟩ := List.getLast?_eq_some_iff.mp h
  obtain ⟨front, last, h⟩ := exists_splitOn_append_singleton hc cs
  refine ⟨front.map String.ofList, last, ?_⟩
  rw [cutLines, hcs, h, List.map_append, List.map_singleton]

end Text

/-! ## Statements as they are written -/

namespace ConstructorStatement

/-- The line of a statement. -/
def line : ConstructorStatement → String
  | .passOn arguments => "    super(" ++ ", ".intercalate arguments ++ ");"
  | .assign field value => "    this." ++ field ++ " = " ++ value ++ ";"

/-- The names in a statement are identifiers, and something is passed on. -/
def IsProper : ConstructorStatement → Prop
  | .passOn arguments => arguments ≠ [] ∧ ∀ name ∈ arguments, isIdentifier name = true
  | .assign field value => isIdentifier field = true ∧ isIdentifier value = true

/-- The tokens of a statement, without its semicolon. -/
def tokens : ConstructorStatement → List Token
  | .passOn arguments =>
    [.word ['s', 'u', 'p', 'e', 'r']] ++ [.mark '(']
      ++ ([.mark ','].intercalate (arguments.map fun name => [.word name.toList]) ++ [.mark ')'] ++ [])
  | .assign field value =>
    [.word ['t', 'h', 'i', 's']] ++ [.mark '.'] ++ ([.word field.toList] ++ [.mark '='] ++ [.word value.toList])

theorem arguments?_intercalate {names : List String} (hne : names ≠ [])
    (h : ∀ name ∈ names, isIdentifier name = true) :
    arguments? ([.mark ','].intercalate (names.map fun name => [.word name.toList]) ++ [.mark ')']) = some names := by
  induction names with
  | nil => exact absurd rfl hne
  | cons name rest ih =>
    rw [List.forall_mem_cons] at h
    cases rest with
    | nil => simp [arguments?, identifier?_toList h.1]
    | cons next others =>
      have hrest := ih (List.cons_ne_nil next others) h.2
      rw [List.map_cons] at hrest
      rw [List.map_cons, List.map_cons, List.intercalate_cons_cons, List.append_assoc, List.append_assoc,
        List.singleton_append, List.singleton_append, arguments?, identifier?_toList h.1, hrest]
      rfl

theorem ofTokens?_tokens {s : ConstructorStatement} (h : s.IsProper) : ofTokens? s.tokens = some s := by
  cases s with
  | passOn arguments =>
    obtain ⟨hne, hnames⟩ := h
    simp [tokens, ofTokens?, arguments?_intercalate hne hnames]
  | assign field value =>
    obtain ⟨hfield, hvalue⟩ := h
    simp [tokens, ofTokens?, identifier?_toList hfield, identifier?_toList hvalue]

/-- The line of a statement is its tokens and a semicolon. -/
theorem exists_scans_line {s : ConstructorStatement} (h : s.IsProper) :
    ∃ cs, s.line.toList = cs ++ [';'] ∧ Token.Scans cs s.tokens := by
  have indented : ∀ name : String, isIdentifier name = true →
      Token.Scans ([' ', ' ', ' ', ' '] ++ name.toList) [.word name.toList] := by
    intro name hname
    exact .gap_cons rfl (.gap_cons rfl (.gap_cons rfl (.gap_cons rfl (Token.scans_identifier hname))))
  cases s with
  | passOn arguments =>
    have hnames : Token.Scans (", ".intercalate arguments).toList
        ([.mark ','].intercalate (arguments.map fun name => [.word name.toList])) := by
      rw [String.toList_intercalate]
      refine Token.Scans.intercalate Token.scansMark_comma ?_
      rw [List.forall₂_map_left_iff, List.forall₂_map_right_iff, List.forall₂_same]
      exact fun name hname => Token.scans_identifier (h.2 name hname)
    have hclosed := hnames.append_mark (Token.scansMark (c := ')') (by decide)) Token.scans_nil
    have hsuper := indented "super" (by decide)
    refine ⟨_, ?_, hsuper.append_mark (Token.scansMark (c := '(') (by decide)) hclosed⟩
    simp [line]
  | assign field value =>
    have hequals : Token.ScansMark [' ', '=', ' '] (.mark '=') :=
      .gap_cons rfl ((Token.scansMark (c := '=') (by decide)).gap rfl)
    have hassigned := (Token.scans_identifier h.1).append_mark hequals (Token.scans_identifier h.2)
    have hthis := indented "this" (by decide)
    refine ⟨_, ?_, hthis.append_mark (Token.scansMark (c := '.') (by decide)) hassigned⟩
    simp [line]

theorem ofLine?_line {s : ConstructorStatement} (h : s.IsProper) : ofLine? s.line = some s := by
  obtain ⟨cs, hline, hscans⟩ := exists_scans_line h
  have hdrop : s.line.toList.dropSuffix? [';'] = some cs :=
    List.dropSuffix?_eq_some_iff.mpr ⟨[';'], hline, beq_self_eq_true _⟩
  rw [ofLine?, hdrop]
  simp [hscans.scanFrom_eq, ofTokens?_tokens h]

/-- The line of a statement has no line feed in it. -/
theorem not_mem_line {s : ConstructorStatement} (h : s.IsProper) : '\n' ∉ s.line.toList := by
  have hname : ∀ {name : String}, isIdentifier name = true → '\n' ∉ name.toList :=
    fun hname hmem => absurd (isIdentifierPart_of_mem hname hmem) (by decide)
  cases s with
  | passOn arguments =>
    have harguments : '\n' ∉ [',', ' '].intercalate (arguments.map String.toList) := by
      refine Text.not_mem_intercalate (by decide) ?_
      simpa using fun name hmem => hname (h.2 name hmem)
    simp [line, harguments]
  | assign field value => simp [line, hname h.1, hname h.2]

theorem isLine_line {s : ConstructorStatement} (h : s.IsProper) : isLine s.line = true := by
  rw [isLine, ofLine?_line h, Option.isSome_some]

/-- A line that ends with a brace is not one of a statement. -/
theorem isLine_append_brace (cs : List Char) : isLine (String.ofList (cs ++ ['\x7b'])) = false := by
  have hdrop : (cs ++ ['\x7b']).dropSuffix? [';'] = none := by
    rw [Option.eq_none_iff_forall_ne_some]
    intro front hfront
    obtain ⟨suffix, hsplit, hsuffix⟩ := List.dropSuffix?_eq_some_iff.mp hfront
    rw [beq_iff_eq] at hsuffix
    subst hsuffix
    exact absurd (List.append_inj' hsplit rfl).2 (by decide)
  rw [isLine, ofLine?, String.toList_ofList, hdrop]
  rfl

/-- Lines of statements are read as these. -/
theorem filterMap_ofLine?_map_line {statements : List ConstructorStatement} (h : ∀ s ∈ statements, s.IsProper) :
    (statements.map line).filterMap ofLine? = statements := by
  have hback : ∀ s ∈ statements, (ofLine? ∘ line) s = some s := fun s hs => ofLine?_line (h s hs)
  rw [List.filterMap_map, List.filterMap_congr hback, List.filterMap_some]

end ConstructorStatement

/-! ## Reading what is written -/

namespace Signature

/-- The heading of the constructor. -/
def heading (s : Signature) : String :=
  ConstructorReading.headingOf s.access s.className s.parameters

/-- The statements of the constructor. -/
def statements (s : Signature) : List ConstructorStatement :=
  ConstructorReading.statementsOf (s.inherited.map (·.name)) (s.own.map (·.name))

theorem lines_eq (s : Signature) :
    s.lines = s.heading :: s.statements.map ConstructorStatement.line ++ ["\x7d"] := by
  by_cases hnone : s.inherited = [] <;>
    simp [lines, heading, ConstructorReading.headingOf, statements, ConstructorReading.statementsOf, hnone,
      ConstructorStatement.line]

/-- With identifiers for the names of the parameters, all statements are proper. -/
theorem isProper_of_mem_statements {s : Signature} (h : ∀ p ∈ s.parameters, isIdentifier p.name = true)
    {statement : ConstructorStatement} (hmem : statement ∈ s.statements) : statement.IsProper := by
  have hinherited : ∀ name ∈ s.inherited.map (·.name), isIdentifier name = true := by
    simpa using fun p hp => h p (List.mem_append_left s.own hp)
  have hown : ∀ name ∈ s.own.map (·.name), isIdentifier name = true := by
    simpa using fun p hp => h p (List.mem_append_right s.inherited hp)
  rcases List.mem_append.mp hmem with hmem | hmem
  · split at hmem
    · exact absurd hmem (by simp)
    · next hne =>
      rw [List.mem_singleton] at hmem
      subst hmem
      exact ⟨hne, hinherited⟩
  · obtain ⟨name, hname, rfl⟩ := List.mem_map.mp hmem
    exact ⟨hown name hname, hown name hname⟩

/-- The lines of a constructor are the lines of its heading, those of its statements, and a brace. -/
theorem cutLines_text {s : Signature} (h : ∀ p ∈ s.parameters, isIdentifier p.name = true) :
    Text.cutLines s.text = Text.cutLines s.heading ++ s.statements.map ConstructorStatement.line ++ ["\x7d"] := by
  have hstatements : (s.statements.map ConstructorStatement.line).flatMap Text.cutLines
      = s.statements.map ConstructorStatement.line := by
    rw [List.flatMap_map, List.map_eq_flatMap]
    exact List.flatMap_congr fun statement hmem =>
      Text.cutLines_of_not_mem (ConstructorStatement.not_mem_line (isProper_of_mem_statements h hmem))
  have hbrace : Text.cutLines "\x7d" = ["\x7d"] := by decide
  rw [text, lines_eq, Text.cutLines_intercalate (by simp), List.flatMap_append, List.flatMap_cons, hstatements,
    List.flatMap_singleton, hbrace]

/-- **A constructor is read as it is written.** Its heading comes back as a whole, whatever the types of the parameters
are, and its statements one by one. -/
theorem ofText?_text {s : Signature} (h : ∀ p ∈ s.parameters, isIdentifier p.name = true) :
    ConstructorReading.ofText? s.text = some { heading := s.heading, statements := s.statements } := by
  have hproper : ∀ statement ∈ s.statements, statement.IsProper := fun _ => isProper_of_mem_statements h
  have hlines : ∀ line ∈ (s.statements.map ConstructorStatement.line).reverse,
      ConstructorStatement.isLine line = true := by
    simpa using fun statement hmem => ConstructorStatement.isLine_line (hproper statement hmem)
  -- The brace at its end keeps the last line of the heading from being taken for a statement.
  obtain ⟨front, last, hheading⟩ := Text.exists_cutLines_eq_append (s := s.heading) (c := '\x7b') (by decide)
    (by rw [heading, ConstructorReading.headingOf, String.toList_append, List.getLast?_append]; rfl)
  have hstop : (Text.cutLines s.heading).reverse.takeWhile ConstructorStatement.isLine = []
      ∧ (Text.cutLines s.heading).reverse.dropWhile ConstructorStatement.isLine
        = (Text.cutLines s.heading).reverse := by
    have hbrace := ConstructorStatement.isLine_append_brace last
    rw [hheading, List.reverse_append, List.reverse_singleton, List.singleton_append, List.takeWhile_cons,
      List.dropWhile_cons, hbrace]
    exact ⟨rfl, rfl⟩
  rw [ConstructorReading.ofText?, cutLines_text h, List.reverse_append, List.reverse_append, List.reverse_singleton,
    List.singleton_append]
  simp only [if_true, List.takeWhile_append_of_pos hlines, List.dropWhile_append_of_pos hlines, hstop.1, hstop.2,
    List.append_nil, List.reverse_reverse, Text.intercalate_cutLines,
    ConstructorStatement.filterMap_ofLine?_map_line hproper]

example : ConstructorReading.ofText?
    "public Employee(Long id, int salary) \x7b\n    super(id);\n    this.salary = salary;\n\x7d"
      = some
        { heading := "public Employee(Long id, int salary) \x7b"
          statements := [.passOn ["id"], .assign "salary" "salary"] } := by
  decide +kernel

end Signature

end EntityForge
