import EntityForge.Proofs.AnnotationReading
import EntityForge.Proofs.ConstructorReading
import EntityForge.Proofs.StringReading
import EntityForge.Synthesis.Method

/-!
# Texts of objects read back

The statement at the end of `toString`, as a compiler reads it from its line and as it is evaluated. What a word stands for
is left to whoever evaluates: words that the language reserves stand for no variable.

Main statement: `toStringBody_says_members`, that the text of an object names its class and shows every member once, in
order, with its value.
-/

namespace EntityForge.Java

/-! ## Tokens of a line -/

/-- Whether a symbol stands between tokens. -/
def Symbol.isGap : Symbol → Bool
  | .char c => Token.isGap c
  | _ => false

theorem length_readUnits {place : LiteralPlace} {symbols after : List Symbol} {units : List Nat}
    (h : readUnits place symbols = some (units, after)) : after.length < symbols.length := by
  induction symbols generalizing place units with
  | nil => simp [readUnits] at h
  | cons s rest ih =>
    rw [List.length_cons]
    rw [readUnits] at h
    split at h
    · simp at h
    · simp only [Option.some.injEq, Prod.mk.injEq] at h
      rw [h.2]
      omega
    · obtain ⟨⟨more, behind⟩, hmore, heq⟩ := Option.map_eq_some_iff.mp h
      have hbehind : behind = after := (Prod.mk.injEq ..).mp heq |>.2
      have hshorter := ih (hbehind ▸ hmore)
      omega

theorem length_readWord (symbols : List Symbol) : (readWord symbols).2.length ≤ symbols.length := by
  induction symbols with
  | nil => simp [readWord]
  | cons s rest ih =>
    cases s with
    | char c =>
      rw [readWord]
      split
      · rw [List.length_cons]
        exact Nat.le_succ_of_le ih
      · exact Nat.le_refl _
    | half n => exact Nat.le_refl _
    | malformed => exact Nat.le_refl _

/-- A token takes symbols away. -/
theorem Token.length_next? {textBlocks : Bool} {symbols after : List Symbol} {t : Token}
    (h : Token.next? textBlocks symbols = some (t, after)) : after.length < symbols.length := by
  unfold Token.next? at h
  split at h
  · next c rest =>
    rw [List.length_cons]
    split at h
    · split at h
      · simp at h
      · obtain ⟨⟨units, behind⟩, hunits, h⟩ := Option.bind_eq_some_iff.mp h
        obtain ⟨cs, -, h⟩ := Option.bind_eq_some_iff.mp h
        have hbehind : behind = after := congrArg Prod.snd (Option.some.inj h)
        have hshorter := length_readUnits hunits
        rw [← hbehind]
        omega
    · split at h
      · have hbehind : (readWord rest).2 = after := congrArg Prod.snd (Option.some.inj h)
        have hshorter := length_readWord rest
        rw [← hbehind]
        omega
      · split at h
        · have hbehind : rest = after := congrArg Prod.snd (Option.some.inj h)
          rw [← hbehind]
          omega
        · simp at h
  · simp at h

/-- The tokens of symbols, in order. -/
def Token.readAll? (textBlocks : Bool) (symbols : List Symbol) : Option (List Token) :=
  match symbols with
  | [] => some []
  | s :: rest =>
    if s.isGap then readAll? textBlocks rest
    else
      match h : Token.next? textBlocks (s :: rest) with
      | none => none
      | some (t, after) =>
        have := Token.length_next? h
        (readAll? textBlocks after).map (t :: ·)
termination_by symbols.length
decreasing_by
  · exact Nat.lt_succ_self rest.length
  · exact this

/-- The tokens of characters in which Unicode escapes are resolved. -/
def Token.ofSource? (textBlocks : Bool) (cs : List Char) : Option (List Token) :=
  Token.readAll? textBlocks (unescapeFrom .plain cs)

/-! ## Concatenations -/

/-- The operand of a concatenation that a token is. -/
def TextPart.ofToken? : Token → Option TextPart
  | .text cs => some (.literal (String.ofList cs))
  | .word cs => (identifier? cs).map .variable
  | .mark _ => none

/-- The operands of a concatenation, which pluses separate. -/
def concatenation? : List Token → Option (List TextPart)
  | [t] => (TextPart.ofToken? t).map ([·])
  | t :: .mark '+' :: rest => do
    let part ← TextPart.ofToken? t
    let others ← concatenation? rest
    pure (part :: others)
  | _ => none

/-- The operands of the concatenation that a line returns, if it does this and no more. -/
def returned? (textBlocks : Bool) (line : String) : Option (List TextPart) :=
  match Token.ofSource? textBlocks line.toList with
  | some (.word cs :: rest) =>
    if cs = "return".toList then (before? ';' rest).bind concatenation? else none
  | _ => none

/-- The text of an operand, where it has one. -/
def TextPart.value? (value : String → Option String) : TextPart → Option String
  | .literal s => some s
  | .variable name => value name

/-- The text of a concatenation behind a text, to which the operands are added one after the other. -/
def concatenateFrom? (value : String → Option String) (before : String) : List TextPart → Option String
  | [] => some before
  | part :: others => do
    let s ← part.value? value
    concatenateFrom? value (before ++ s) others

/-- The text of a concatenation where the variables have these values. -/
def concatenate? (value : String → Option String) (parts : List TextPart) : Option String :=
  concatenateFrom? value "" parts

/-! ## Reading the pieces of a line -/

namespace Token

variable {textBlocks : Bool} {c : Char}

theorem next?_gap_cons (hc : isGap c = true) (rest : List Symbol) :
    Token.next? textBlocks (.char c :: rest) = none := by
  have hpart := not_isIdentifierPart (.inl hc)
  simp only [isGap, Bool.or_eq_true, beq_iff_eq] at hc
  rcases hc with (((rfl | rfl) | rfl) | rfl) | rfl <;> simp [Token.next?, hpart, standsAlone]

/-- A token that is found comes first, and then what follows it. -/
theorem readAll?_of_next? {symbols after : List Symbol} {t : Token}
    (h : Token.next? textBlocks symbols = some (t, after)) :
    readAll? textBlocks symbols = (readAll? textBlocks after).map (t :: ·) := by
  cases symbols with
  | nil => simp [Token.next?] at h
  | cons s rest =>
    have hgap : s.isGap = false := by
      rw [Bool.eq_false_iff]
      intro hgap
      cases s with
      | char c => simp [next?_gap_cons (c := c) hgap] at h
      | half n => simp [Symbol.isGap] at hgap
      | malformed => simp [Symbol.isGap] at hgap
    rw [readAll?, if_neg (by simp [hgap])]
    split
    · next hnone => simp [h] at hnone
    · next found behind hfound =>
      rw [h, Option.some.injEq, Prod.mk.injEq] at hfound
      rw [hfound.1, hfound.2]

theorem ofSource?_gap_cons (hc : isGap c = true) (after : List Char) :
    ofSource? textBlocks (c :: after) = ofSource? textBlocks after := by
  have hslash : c ≠ '\\' := by
    rintro rfl
    exact absurd hc (by decide)
  have hgap : (Symbol.char c).isGap = true := hc
  rw [ofSource?, unescapeFrom_plain_cons hslash, readAll?, if_pos hgap, ofSource?]

/-- A mark is read alone before a blank or where nothing follows. -/
theorem ofSource?_mark_cons (hc : c = '+' ∨ c = ';') {after : List Char} (hafter : ∀ d ∈ after.head?, d = ' ') :
    ofSource? textBlocks (c :: after) = (ofSource? textBlocks after).map (.mark c :: ·) := by
  have hpart : isIdentifierPart c = false := by rcases hc with rfl | rfl <;> decide
  have hslash : c ≠ '\\' ∧ c ≠ '"' := by rcases hc with rfl | rfl <;> decide
  have halone : standsAlone c (unescapeFrom .plain after) = true := by
    cases after with
    | nil => rcases hc with rfl | rfl <;> decide
    | cons d rest =>
      rw [hafter d rfl, unescapeFrom_plain_cons (by decide)]
      rcases hc with rfl | rfl <;> simp [standsAlone]
  rw [ofSource?, unescapeFrom_plain_cons hslash.1, readAll?_of_next? (t := .mark c)]
  · rfl
  · simp [Token.next?, hslash.2, hpart, halone]

/-- A blank or a semicolon, at which both words and string literals end. -/
def EndsAt (after : List Char) : Prop :=
  ∃ c rest, after = c :: rest ∧ (c = ' ' ∨ c = ';')

theorem readWord_map_char {cs : List Char} (hcs : ∀ c ∈ cs, isIdentifierPart c = true) {d : Char}
    (hd : isIdentifierPart d = false) (after : List Symbol) :
    readWord (cs.map .char ++ .char d :: after) = (cs, .char d :: after) := by
  induction cs with
  | nil => simp [readWord, hd]
  | cons c rest ih =>
    have hrest := ih fun e he => hcs e (List.mem_cons_of_mem c he)
    rw [List.map_cons, List.cons_append, readWord, if_pos (hcs c List.mem_cons_self), hrest]

theorem ofSource?_word {name : String} (hname : isIdentifier name = true) {after : List Char}
    (hends : EndsAt after) :
    ofSource? textBlocks (name.toList ++ after) = (ofSource? textBlocks after).map (.word name.toList :: ·) := by
  obtain ⟨d, rest, rfl, hd⟩ := hends
  have hstop : isIdentifierPart d = false ∧ d ≠ '\\' := by rcases hd with rfl | rfl <;> decide
  have hparts := fun c (hc : c ∈ name.toList) => isIdentifierPart_of_mem hname hc
  have hslash : '\\' ∉ name.toList := by
    intro hmem
    exact absurd (hparts '\\' hmem) (by decide)
  rw [ofSource?, ofSource?, unescapeFrom_append_of_not_mem hslash]
  refine readAll?_of_next? ?_
  cases hchars : name.toList with
  | nil => simp [isIdentifier, hchars] at hname
  | cons c others =>
    rw [hchars] at hparts
    have hc := hparts c List.mem_cons_self
    have hquote : c ≠ '"' := by
      rintro rfl
      exact absurd hc (by decide)
    rw [unescapeFrom_plain_cons hstop.2, List.map_cons, List.cons_append, Token.next?, if_neg hquote, if_pos hc,
      readWord_map_char (fun e he => hparts e (List.mem_cons_of_mem c he)) hstop.1]

theorem ofSource?_quote (value : String) {after : List Char} (hends : EndsAt after) :
    ofSource? textBlocks ((quote value).toList ++ after)
      = (ofSource? textBlocks after).map (.text value.toList :: ·) := by
  obtain ⟨d, rest, rfl, hd⟩ := hends
  have hblock : ¬BeginsWithQuote (unescapeFrom .plain (d :: rest)) := by
    have hother : d ≠ '\\' ∧ d ≠ '"' := by rcases hd with rfl | rfl <;> decide
    rw [unescapeFrom_plain_cons hother.1]
    simp [BeginsWithQuote, hother.2]
  rw [ofSource?, ofSource?, toList_quote, unescapeFrom_quoteChars]
  refine readAll?_of_next? ?_
  rw [Token.next?_quoteChars, if_neg (fun h => hblock h.2.2)]

end Token

/-! ## Reading what is written -/

/-- Operands that can be written: variables are identifiers. -/
def TextPart.WellFormed : TextPart → Prop
  | .literal _ => True
  | .variable name => isIdentifier name = true

/-- The token that an operand is. -/
def TextPart.token : TextPart → Token
  | .literal value => .text value.toList
  | .variable name => .word name.toList

variable {textBlocks : Bool}

theorem TextPart.ofToken?_token {part : TextPart} (h : part.WellFormed) : TextPart.ofToken? part.token = some part := by
  cases part with
  | literal value => simp [TextPart.token, TextPart.ofToken?]
  | «variable» name => simp [TextPart.token, TextPart.ofToken?, identifier?_toList h]

theorem TextPart.ofSource?_text {part : TextPart} (h : part.WellFormed) {after : List Char}
    (hends : Token.EndsAt after) :
    Token.ofSource? textBlocks (part.text.toList ++ after)
      = (Token.ofSource? textBlocks after).map (part.token :: ·) := by
  cases part with
  | literal value => exact Token.ofSource?_quote value hends
  | «variable» name => exact Token.ofSource?_word h hends

/-- The tokens of a concatenation: those of its operands, with pluses between them. -/
def concatenationTokens (parts : List TextPart) : List Token :=
  [.mark '+'].intercalate (parts.map fun part => [part.token])

theorem concatenationTokens_cons_cons (part next : TextPart) (others : List TextPart) :
    concatenationTokens (part :: next :: others)
      = part.token :: .mark '+' :: concatenationTokens (next :: others) := by
  simp [concatenationTokens, List.intercalate_cons_cons]

theorem ofSource?_operands {parts : List TextPart} (hne : parts ≠ []) (h : ∀ part ∈ parts, part.WellFormed) :
    Token.ofSource? textBlocks ((" + ".intercalate (parts.map TextPart.text)).toList ++ [';'])
      = some (concatenationTokens parts ++ [.mark ';']) := by
  induction parts with
  | nil => exact absurd rfl hne
  | cons part rest ih =>
    have hpart := h part List.mem_cons_self
    cases rest with
    | nil =>
      have hend : Token.ofSource? textBlocks [';'] = some [.mark ';'] := by
        rw [Token.ofSource?_mark_cons (.inr rfl) (by simp)]
        simp [Token.ofSource?, unescapeFrom, EscapePlace.finish, Token.readAll?]
      rw [List.map_singleton, String.intercalate_singleton,
        TextPart.ofSource?_text hpart ⟨';', [], rfl, .inr rfl⟩, hend]
      simp [concatenationTokens]
    | cons next others =>
      have hrest := ih (by simp) fun p hp => h p (List.mem_cons_of_mem part hp)
      have hgap : Token.isGap ' ' = true := by decide
      have hwritten : (" + ".intercalate ((part :: next :: others).map TextPart.text)).toList ++ [';']
          = part.text.toList ++ ' ' :: '+' :: ' ' ::
            ((" + ".intercalate ((next :: others).map TextPart.text)).toList ++ [';']) := by
        rw [List.map_cons, List.map_cons, String.intercalate_cons_cons, String.toList_append, String.toList_append,
          List.append_assoc, List.append_assoc]
        rfl
      rw [hwritten, TextPart.ofSource?_text hpart ⟨' ', _, rfl, .inl rfl⟩, Token.ofSource?_gap_cons hgap,
        Token.ofSource?_mark_cons (.inl rfl) (by simp), Token.ofSource?_gap_cons hgap, hrest,
        concatenationTokens_cons_cons]
      rfl

theorem concatenation?_tokens {parts : List TextPart} (hne : parts ≠ []) (h : ∀ part ∈ parts, part.WellFormed) :
    concatenation? (concatenationTokens parts) = some parts := by
  induction parts with
  | nil => exact absurd rfl hne
  | cons part rest ih =>
    have hpart := TextPart.ofToken?_token (h part List.mem_cons_self)
    cases rest with
    | nil => simp [concatenationTokens, concatenation?, hpart]
    | cons next others =>
      have hrest := ih (by simp) fun p hp => h p (List.mem_cons_of_mem part hp)
      rw [concatenationTokens_cons_cons, concatenation?, hpart, hrest]
      rfl

/-- The line that returns a concatenation. -/
def returnLine (parts : List TextPart) : String :=
  "return " ++ " + ".intercalate (parts.map TextPart.text) ++ ";"

/-- The line that returns a concatenation is read as the concatenation. -/
theorem returned?_returnLine {parts : List TextPart} (hne : parts ≠ []) (h : ∀ part ∈ parts, part.WellFormed) :
    returned? textBlocks (returnLine parts) = some parts := by
  have hline : (returnLine parts).toList
      = "return".toList ++ ' ' :: ((" + ".intercalate (parts.map TextPart.text)).toList ++ [';']) := by
    rw [returnLine, String.toList_append, String.toList_append, List.append_assoc]
    rfl
  rw [returned?, hline, Token.ofSource?_word (by decide) ⟨' ', _, rfl, .inl rfl⟩,
    Token.ofSource?_gap_cons (by decide), ofSource?_operands hne h]
  show (if "return".toList = "return".toList then
    (before? ';' (concatenationTokens parts ++ [.mark ';'])).bind concatenation? else none) = some parts
  rw [if_pos rfl, before?_concat, Option.bind_some, concatenation?_tokens hne h]

/-- Behind whatever statements, the last line is the one that returns. -/
theorem afterLast_bodyText (before : List Statement) {parts : List TextPart}
    (hfeed : '\n' ∉ (returnLine parts).toList) :
    Text.afterLast '\n' (bodyText (before ++ [.returnText parts])) = returnLine parts := by
  obtain ⟨hself, hbehind⟩ := Text.afterLastChars_of_not_mem hfeed
  have hlines : (before ++ [Statement.returnText parts]).flatMap Statement.lines
      = before.flatMap Statement.lines ++ [returnLine parts] := by
    rw [List.flatMap_append, List.flatMap_singleton]
    rfl
  rw [bodyText, hlines, Text.afterLast]
  by_cases hfirst : before.flatMap Statement.lines = []
  · rw [hfirst, List.nil_append, String.intercalate_singleton, hself, String.ofList_toList]
  · have hcut := hbehind ("\n".intercalate (before.flatMap Statement.lines)).toList
    rw [← intercalate_concat hfirst, String.toList_append, String.toList_append, List.append_assoc]
    show String.ofList (Text.afterLastChars '\n' (_ ++ '\n' :: (returnLine parts).toList)) = returnLine parts
    rw [hcut, String.ofList_toList]

/-- Operands are written on one line. -/
theorem not_mem_returnLine {parts : List TextPart} (h : ∀ part ∈ parts, part.WellFormed) :
    '\n' ∉ (returnLine parts).toList := by
  have hpart : ∀ part ∈ parts, '\n' ∉ part.text.toList := by
    intro part hmem hfeed
    have hwell := h part hmem
    cases part with
    | literal value =>
      rw [TextPart.text, toList_quote] at hfeed
      exact not_mem_quoteChars (.inl rfl) value.toList hfeed
    | «variable» name => exact absurd (isIdentifierPart_of_mem hwell hfeed) (by decide)
  have hoperands : '\n' ∉ (" + ".intercalate (parts.map TextPart.text)).toList := by
    rw [String.toList_intercalate]
    refine Text.not_mem_intercalate (by decide) ?_
    intro piece hpiece
    rw [List.map_map] at hpiece
    obtain ⟨part, hmem, rfl⟩ := List.mem_map.mp hpiece
    exact hpart part hmem
  rw [returnLine, String.toList_append, String.toList_append, List.mem_append, List.mem_append, not_or, not_or]
  exact ⟨⟨by decide, hoperands⟩, by decide⟩

end EntityForge.Java

namespace EntityForge.MethodInput

open Java

variable {className : String} {input : MethodInput} {value : String → Option String}

theorem textParts_cons_cons (before name next : String) (others : List String) :
    textParts before (name :: next :: others)
      = .literal (before ++ name ++ "=") :: .variable name :: textParts ", " (next :: others) :=
  rfl

theorem textParts_ne_nil (before : String) (names : List String) : textParts before names ≠ [] := by
  unfold textParts
  split <;> simp

theorem wellFormed_textParts {names : List String} (h : ∀ name ∈ names, isIdentifier name = true) (before : String) :
    ∀ part ∈ textParts before names, part.WellFormed := by
  induction names generalizing before with
  | nil => simp [textParts, TextPart.WellFormed]
  | cons name rest ih =>
    have hname := h name List.mem_cons_self
    cases rest with
    | nil => simp [textParts, TextPart.WellFormed, hname]
    | cons next others =>
      rw [textParts_cons_cons, List.forall_mem_cons, List.forall_mem_cons]
      exact ⟨trivial, hname, ih (fun n hn => h n (List.mem_cons_of_mem name hn)) ", "⟩

/-- A member and its value as they are shown. -/
def shown (m : Member) (v : String) : String :=
  m.name ++ "=" ++ v

/-- The members and their values as they are shown, with commas between them. -/
def allShown (members : List Member) (values : List String) : String :=
  ", ".intercalate (List.zipWith shown members values)

/-- Behind a text, the parts add to it what they open with, the members with their values, and a closing brace. -/
theorem concatenateFrom?_textParts {members : List Member} {values : List String}
    (h : List.Forall₂ (fun m v => value m.name = some v) members values) (done before : String) :
    concatenateFrom? value done (textParts before (members.map (·.name)))
      = some (done ++ (before ++ allShown members values ++ "\x7d")) := by
  induction h generalizing done before with
  | nil => simp [textParts, concatenateFrom?, TextPart.value?, allShown]
  | @cons m v _ _ hfirst hrest ih =>
    cases hrest with
    | nil => simp [textParts, concatenateFrom?, TextPart.value?, hfirst, allShown, shown, String.append_assoc]
    | @cons next w others ws _ _ =>
      have hshown : allShown (m :: next :: others) (v :: w :: ws)
          = shown m v ++ ", " ++ allShown (next :: others) (w :: ws) := by
        rw [allShown, allShown, List.zipWith_cons_cons, List.zipWith_cons_cons, String.intercalate_cons_cons]
      have hothers := ih (done ++ (before ++ m.name ++ "=") ++ v) ", "
      have hstep : concatenateFrom? value done (textParts before ((m :: next :: others).map (·.name)))
          = concatenateFrom? value (done ++ (before ++ m.name ++ "=") ++ v)
            (textParts ", " ((next :: others).map (·.name))) := by
        simp [textParts_cons_cons, concatenateFrom?, TextPart.value?, hfirst]
      rw [hstep, hothers, hshown, shown]
      simp only [String.append_assoc]

/-- A body is made where there is something to say and all names are right. -/
theorem toStringBody_eq_ok (hclass : isIdentifier className = true)
    (hmembers : ∀ m ∈ input.members, isIdentifier m.name = true) (hinput : input.isEmpty = false) :
    input.toStringBody className = .ok (some (input.toStringStatements className)) := by
  have hfault : input.fault? className = none := by
    simpa [fault?, hclass] using hmembers
  rw [toStringBody, body, if_neg (by simp [hinput]), hfault]

/-- **What `toString` says.** For a class name and members that are identifiers, and unless there are no members and no
code written by hand, there is a body of `toString`. Its last line is read by a compiler as a statement that returns a
concatenation. Whatever the texts of the members, evaluated from the left the concatenation is the name of the class and,
between braces, every member once, in order, with its text, and commas between the members only. -/
theorem toStringBody_says_members (hclass : isIdentifier className = true)
    (hmembers : ∀ m ∈ input.members, isIdentifier m.name = true) (hinput : input.isEmpty = false) :
    ∃ statements, input.toStringBody className = .ok (some statements)
      ∧ ∃ parts, (∀ textBlocks, returned? textBlocks (Text.afterLast '\n' (bodyText statements)) = some parts)
        ∧ ∀ (value : String → Option String) (values : List String),
          List.Forall₂ (fun m v => value m.name = some v) input.members values →
            concatenate? value parts = some (className ++ "\x7b" ++ allShown input.members values ++ "\x7d") := by
  have hnames : ∀ name ∈ input.members.map (·.name), isIdentifier name = true := by
    intro name hname
    obtain ⟨m, hm, rfl⟩ := List.mem_map.mp hname
    exact hmembers m hm
  have hwell := wellFormed_textParts hnames (className ++ "\x7b")
  refine ⟨input.toStringStatements className, toStringBody_eq_ok hclass hmembers hinput,
    textParts (className ++ "\x7b") (input.members.map (·.name)), ?_, ?_⟩
  · intro textBlocks
    rw [toStringStatements, afterLast_bodyText _ (not_mem_returnLine hwell)]
    exact returned?_returnLine (textParts_ne_nil _ _) hwell
  · intro value values hvalues
    rw [concatenate?, concatenateFrom?_textParts hvalues, String.empty_append]

/-- The members of a person that `toString` shows. -/
def personMembers : MethodInput where
  members := [{ name := "name", shape := .object }, { name := "$größe", shape := .object }]
  preCode := none
  postCode := none

theorem toStringBody_says_members_person :
    isIdentifier "Person" = true ∧ (∀ m ∈ personMembers.members, isIdentifier m.name = true)
      ∧ personMembers.isEmpty = false
      ∧ ∃ statements, personMembers.toStringBody "Person" = .ok (some statements)
        ∧ ∃ parts, (∀ textBlocks, returned? textBlocks (Text.afterLast '\n' (bodyText statements)) = some parts)
          ∧ concatenate? (fun name => if name = "name" then some "Ada" else some "170") parts
            = some "Person\x7bname=Ada, $größe=170\x7d" := by
  have hclass : isIdentifier "Person" = true := by decide +kernel
  have hmembers : ∀ m ∈ personMembers.members, isIdentifier m.name = true := by decide +kernel
  have hinput : personMembers.isEmpty = false := by decide
  obtain ⟨statements, hbody, parts, hread, htext⟩ := toStringBody_says_members hclass hmembers hinput
  have hvalues : List.Forall₂ (fun m v => (if m.name = "name" then some "Ada" else some "170") = some v)
      personMembers.members ["Ada", "170"] := by
    simp [personMembers]
  exact ⟨hclass, hmembers, hinput, statements, hbody, parts, hread, htext _ ["Ada", "170"] hvalues⟩

end EntityForge.MethodInput
