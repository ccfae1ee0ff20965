import EntityForge.Proofs.AnnotationTokens
import EntityForge.Proofs.Writing

/-!
# String literals read back

How a compiler reads the string literal of a text. It resolves Unicode escapes before anything else, and there it counts
backslashes: only one with an even number of them in front may begin an escape. What it cuts into tokens are the symbols
that come out of this.

Main statement: `quote_reads_back`, that the literal of a text is read as one token that says the text, and that what
follows is read as if nothing had come before it.
-/

namespace EntityForge.Java

/-! ## Unicode escapes -/

/-- What is read for a character, or for a Unicode escape in the place of one. -/
inductive Symbol where
  | char (c : Char)
  /-- A code unit that is one half of a surrogate pair. -/
  | half (n : Nat)
  /-- An escape that lacks digits, at which reading ends. -/
  | malformed
  deriving DecidableEq

/-- The symbol of a code unit. -/
def Symbol.ofUnit (n : Nat) : Symbol :=
  if Json.Token.isHighHalf n || Json.Token.isLowHalf n then .half n else .char (Char.ofNat n)

/-- Where the resolution of Unicode escapes stands. -/
inductive EscapePlace where
  /-- Behind an even number of backslashes, or none. -/
  | plain
  /-- Behind a backslash that may begin an escape. -/
  | backslash
  /-- Behind such a backslash and at least one `u`. -/
  | marker
  /-- Behind digits of this value, with so many missing. -/
  | digits (value missing : Nat)
  | failed

namespace EscapePlace

/-- The symbols that a character completes, and the place behind it. -/
def step : EscapePlace → Char → List Symbol × EscapePlace
  | .plain, c => if c = '\\' then ([], .backslash) else ([.char c], .plain)
  | .backslash, c => if c = 'u' then ([], .marker) else ([.char '\\', .char c], .plain)
  | .marker, c =>
    if c = 'u' then ([], .marker)
    else
      match Json.Token.hexDigit? c with
      | some n => ([], .digits n 3)
      | none => ([.malformed], .failed)
  | .digits value missing, c =>
    match Json.Token.hexDigit? c with
    | some n => if missing ≤ 1 then ([.ofUnit (16 * value + n)], .plain) else ([], .digits (16 * value + n) (missing - 1))
    | none => ([.malformed], .failed)
  | .failed, _ => ([], .failed)

/-- The symbols that the end of the source completes. -/
def finish : EscapePlace → List Symbol
  | .plain | .failed => []
  | .backslash => [.char '\\']
  | .marker | .digits _ _ => [.malformed]

end EscapePlace

/-- The symbols of the characters from a place on. -/
def unescapeFrom (place : EscapePlace) : List Char → List Symbol
  | [] => place.finish
  | c :: rest => (place.step c).1 ++ unescapeFrom (place.step c).2 rest

/-- The symbols of a source, in which Unicode escapes are resolved. -/
def unescape (source : String) : List Symbol :=
  unescapeFrom .plain source.toList

/-! ## String literals -/

/-- Where the reading of a string literal stands. -/
inductive LiteralPlace where
  | text
  /-- Behind a backslash. -/
  | escape
  /-- Behind octal digits of this value, which so many more may follow. -/
  | octal (value more : Nat)
  | closed

/-- The value of an octal digit. -/
def Symbol.octalDigit? : Symbol → Option Nat
  | .char c => if '0' ≤ c ∧ c ≤ '7' then some (c.toNat - '0'.toNat) else none
  | _ => none

namespace LiteralPlace

/-- The code units that a symbol adds where no escape has begun, and the place behind it. Lines do not end within a
literal. -/
def plain? : Symbol → Option (List Nat × LiteralPlace)
  | .char c =>
    if c = '"' then some ([], .closed)
    else if c = '\\' then some ([], .escape)
    else if c = '\n' ∨ c = '\r' then none
    else some ([c.toNat], .text)
  | .half n => some ([n], .text)
  | .malformed => none

/-- The code units that a symbol behind a backslash adds, and the place behind it: it is a letter that stands for a
character, or the first of up to three octal digits. -/
def escaped? : Symbol → Option (List Nat × LiteralPlace)
  | .char c =>
    match Token.escaped? c with
    | some d => some ([d.toNat], .text)
    | none => (Symbol.char c).octalDigit?.map fun n => ([], .octal n (if n ≤ 3 then 2 else 1))
  | _ => none

/-- The code units that a symbol adds, and the place behind it. -/
def step? : LiteralPlace → Symbol → Option (List Nat × LiteralPlace)
  | .text, s => plain? s
  | .escape, s => escaped? s
  | .octal value more, s =>
    match more, s.octalDigit? with
    | more + 1, some n => some ([], .octal (8 * value + n) more)
    | _, _ => (plain? s).map fun (units, place) => (value :: units, place)
  | .closed, _ => none

end LiteralPlace

/-- The code units of a literal from a place on, and the symbols behind its closing quote. -/
def readUnits (place : LiteralPlace) : List Symbol → Option (List Nat × List Symbol)
  | [] => none
  | s :: rest =>
    match place.step? s with
    | none => none
    | some (units, .closed) => some (units, rest)
    | some (units, next) => (readUnits next rest).map fun (more, after) => (units ++ more, after)

/-! ## Tokens -/

/-- Whether two more quotes follow a quote, which open a text block with it. -/
def opensBlock : List Symbol → Bool
  | .char '"' :: .char '"' :: _ => true
  | _ => false

/-- The characters of a word, and the symbols behind it. -/
def readWord : List Symbol → List Char × List Symbol
  | .char c :: rest =>
    if isIdentifierPart c then ((c :: (readWord rest).1), (readWord rest).2) else ([], .char c :: rest)
  | symbols => ([], symbols)

/-- Whether a character is a token of its own before these symbols. A plus may also begin a longer operator. -/
def standsAlone (c : Char) (rest : List Symbol) : Bool :=
  ['(', ')', '\x7b', '\x7d', '[', ']', ';', ',', '@'].contains c
    || (c == '+' && rest.head? != some (.char '+') && rest.head? != some (.char '='))

/-- The token that symbols begin with, and the symbols behind it. There are words, string literals, which spell a text,
and marks that stand alone; other tokens are not read, and neither are text blocks, which not every compiler knows. -/
def Token.next? (textBlocks : Bool) : List Symbol → Option (Token × List Symbol)
  | .char c :: rest =>
    if c = '"' then
      if textBlocks && opensBlock rest then none
      else do
        let (units, after) ← readUnits .text rest
        let cs ← Json.Token.spell? units
        pure (.text cs, after)
    else if isIdentifierPart c then some (.word (c :: (readWord rest).1), (readWord rest).2)
    else if standsAlone c rest then some (.mark c, rest)
    else none
  | _ => none

/-! ## What is written in a literal -/

theorem toList_quote (s : String) : (quote s).toList = quoteChars s.toList :=
  String.toList_ofList

/-- A character of a literal stands for itself, or is written as a backslash and a letter. -/
theorem escapeChar_cases (c : Char) :
    (escapeChar c = [c] ∧ c ≠ '"' ∧ c ≠ '\\' ∧ c ≠ '\n' ∧ c ≠ '\r')
      ∨ ∃ d, escapeChar c = ['\\', d] ∧ Token.escaped? d = some c ∧ d ≠ 'u' ∧ d ≠ '\n' ∧ d ≠ '\r' := by
  unfold escapeChar
  split
  · exact .inr ⟨'"', rfl, rfl, by decide, by decide, by decide⟩
  · exact .inr ⟨'\\', rfl, rfl, by decide, by decide, by decide⟩
  · exact .inr ⟨'n', rfl, rfl, by decide, by decide, by decide⟩
  · exact .inr ⟨'r', rfl, rfl, by decide, by decide, by decide⟩
  · exact .inr ⟨'t', rfl, rfl, by decide, by decide, by decide⟩
  · next hquote hslash hfeed hreturn _ => exact .inl ⟨rfl, hquote, hslash, hfeed, hreturn⟩

/-- No line ends within a literal. -/
theorem not_mem_quoteChars {c : Char} (hc : c = '\n' ∨ c = '\r') (cs : List Char) : c ∉ quoteChars cs := by
  have hbody : c ∉ cs.flatMap escapeChar := by
    intro hmem
    obtain ⟨d, -, hd⟩ := List.mem_flatMap.mp hmem
    rcases escapeChar_cases d with ⟨hself, -, -, hfeed, hreturn⟩ | ⟨l, hpair, -, -, hfeed, hreturn⟩
    · rw [hself, List.mem_singleton] at hd
      rcases hc with rfl | rfl
      · exact hfeed hd.symm
      · exact hreturn hd.symm
    · rw [hpair] at hd
      rcases hc with rfl | rfl
      · simp [hfeed.symm] at hd
      · simp [hreturn.symm] at hd
  rcases hc with rfl | rfl <;> simp [quoteChars, hbody]

/-! ## Resolving nothing -/

theorem unescapeFrom_plain_cons {c : Char} (h : c ≠ '\\') (after : List Char) :
    unescapeFrom .plain (c :: after) = .char c :: unescapeFrom .plain after := by
  rw [unescapeFrom, EscapePlace.step, if_neg h, List.singleton_append]

/-- A backslash that another character follows than a `u` begins no escape, and neither does that character. -/
theorem unescapeFrom_backslash_cons {d : Char} (h : d ≠ 'u') (after : List Char) :
    unescapeFrom .plain ('\\' :: d :: after) = .char '\\' :: .char d :: unescapeFrom .plain after := by
  simp [unescapeFrom, EscapePlace.step, h]

/-- Without backslashes there is nothing to resolve. -/
theorem unescapeFrom_append_of_not_mem {cs : List Char} (h : '\\' ∉ cs) (after : List Char) :
    unescapeFrom .plain (cs ++ after) = cs.map .char ++ unescapeFrom .plain after := by
  induction cs with
  | nil => rfl
  | cons c cs ih =>
    rw [List.mem_cons, not_or] at h
    rw [List.cons_append, unescapeFrom_plain_cons (Ne.symm h.1), ih h.2, List.map_cons, List.cons_append]

/-- The backslashes of a literal come in pairs or before other letters than `u`, so there is nothing to resolve in it, and
behind it an escape may begin. -/
theorem unescapeFrom_quoteChars (cs after : List Char) :
    unescapeFrom .plain (quoteChars cs ++ after) = (quoteChars cs).map .char ++ unescapeFrom .plain after := by
  have hbody : ∀ rest, unescapeFrom .plain (cs.flatMap escapeChar ++ rest)
      = (cs.flatMap escapeChar).map .char ++ unescapeFrom .plain rest := by
    intro rest
    induction cs with
    | nil => rfl
    | cons c cs ih =>
      rw [List.flatMap_cons, List.append_assoc, List.map_append, List.append_assoc, ← ih]
      rcases escapeChar_cases c with ⟨hself, -, hslash, -⟩ | ⟨d, hpair, -, hu, -⟩
      · rw [hself, List.singleton_append, unescapeFrom_plain_cons hslash]
        rfl
      · rw [hpair, List.cons_append, List.singleton_append, unescapeFrom_backslash_cons hu]
        rfl
  have hquote : '"' ≠ '\\' := by decide
  rw [quoteChars, List.cons_append, List.cons_append, unescapeFrom_plain_cons hquote, List.append_assoc, hbody,
    List.singleton_append, unescapeFrom_plain_cons hquote]
  simp

/-! ## Reading what is written -/

/-- A symbol that does not close the literal adds its code units in front of those that follow. -/
theorem readUnits_cons_of_step {place next : LiteralPlace} {s : Symbol} {units : List Nat}
    (h : place.step? s = some (units, next)) (hopen : next ≠ .closed) (rest : List Symbol) :
    readUnits place (s :: rest) = (readUnits next rest).map fun (more, after) => (units ++ more, after) := by
  rw [readUnits, h]
  cases next with
  | closed => exact absurd rfl hopen
  | _ => rfl

/-- A character is read as its code point, however it is written. -/
theorem readUnits_escapeChar (c : Char) (after : List Symbol) :
    readUnits .text ((escapeChar c).map .char ++ after)
      = (readUnits .text after).map fun (units, rest) => (c.toNat :: units, rest) := by
  rcases escapeChar_cases c with ⟨hself, hquote, hslash, hfeed, hreturn⟩ | ⟨d, hpair, hescaped, -⟩
  · have hstep : LiteralPlace.text.step? (.char c) = some ([c.toNat], .text) := by
      simp [LiteralPlace.step?, LiteralPlace.plain?, hquote, hslash, hfeed, hreturn]
    rw [hself, List.map_singleton, List.singleton_append, readUnits_cons_of_step hstep (by simp)]
    rfl
  · have hslash : LiteralPlace.text.step? (.char '\\') = some ([], .escape) := by
      simp [LiteralPlace.step?, LiteralPlace.plain?]
    have hletter : LiteralPlace.escape.step? (.char d) = some ([c.toNat], .text) := by
      simp [LiteralPlace.step?, LiteralPlace.escaped?, hescaped]
    rw [hpair, List.map_cons, List.map_singleton, List.cons_append, List.singleton_append,
      readUnits_cons_of_step hslash (by simp), readUnits_cons_of_step hletter (by simp), Option.map_map]
    rfl

/-- Up to its closing quote a literal is read as the code points of its text. -/
theorem readUnits_flatMap_escapeChar (cs : List Char) (after : List Symbol) :
    readUnits .text ((cs.flatMap escapeChar).map .char ++ .char '"' :: after) = some (cs.map Char.toNat, after) := by
  induction cs with
  | nil => simp [readUnits, LiteralPlace.step?, LiteralPlace.plain?]
  | cons c cs ih =>
    rw [List.flatMap_cons, List.map_append, List.append_assoc, readUnits_escapeChar, ih]
    rfl

theorem spell?_map_toNat (cs : List Char) : Json.Token.spell? (cs.map Char.toNat) = some cs := by
  induction cs with
  | nil => rfl
  | cons c cs ih =>
    rw [List.map_cons, Json.Token.spell?_toNat_cons, ih]
    rfl

/-- The first character that is read is a double quote, whether it stands there or is written as an escape. -/
def BeginsWithQuote (symbols : List Symbol) : Prop :=
  symbols.head? = some (.char '"')

instance : DecidablePred BeginsWithQuote := fun symbols =>
  inferInstanceAs (Decidable (symbols.head? = some (.char '"')))

/-- Only the empty literal before a quote looks like the opening of a text block. -/
theorem opensBlock_iff (cs : List Char) (after : List Symbol) :
    opensBlock ((cs.flatMap escapeChar).map .char ++ .char '"' :: after) = true ↔ cs = [] ∧ BeginsWithQuote after := by
  cases cs with
  | nil =>
    cases after with
    | nil => simp [opensBlock, BeginsWithQuote]
    | cons s after =>
      by_cases hs : s = .char '"' <;> simp [opensBlock, BeginsWithQuote, hs]
  | cons c cs =>
    have hfirst : ∀ rest, opensBlock ((escapeChar c).map .char ++ rest) = false := by
      intro rest
      rcases escapeChar_cases c with ⟨hself, hquote, -⟩ | ⟨d, hpair, -⟩
      · simp [hself, opensBlock, hquote]
      · simp [hpair, opensBlock]
    rw [List.flatMap_cons, List.map_append, List.append_assoc, hfirst]
    simp

/-- A string literal is one token, unless it is empty and opens a text block together with what follows. -/
theorem Token.next?_quoteChars (textBlocks : Bool) (cs : List Char) (after : List Symbol) :
    Token.next? textBlocks ((quoteChars cs).map .char ++ after)
      = if textBlocks = true ∧ cs = [] ∧ BeginsWithQuote after then none else some (.text cs, after) := by
  have hsymbols : (quoteChars cs).map .char ++ after
      = .char '"' :: ((cs.flatMap escapeChar).map .char ++ .char '"' :: after) := by
    simp [quoteChars]
  rw [hsymbols, Token.next?, if_pos rfl, readUnits_flatMap_escapeChar]
  simp [spell?_map_toNat, Bool.and_eq_true, opensBlock_iff]

/-- **A string literal says its text.** Whatever the text and whatever follows its literal: no Unicode escape is found in
the literal, none of its characters ends a line, and what follows is read as it is on its own. The literal is read as one
token that says the text, and reading stops where it ends. There is one exception, and only for compilers that know text
blocks: the literal of the empty text with another double quote right behind it, which may also be written as an escape. -/
theorem quote_reads_back (textBlocks : Bool) (s rest : String) :
    unescape (quote s ++ rest) = (quote s).toList.map .char ++ unescape rest
      ∧ '\n' ∉ (quote s).toList ∧ '\r' ∉ (quote s).toList
      ∧ (Token.next? textBlocks (unescape (quote s ++ rest)) = some (.text s.toList, unescape rest)
        ↔ ¬(textBlocks = true ∧ s = "" ∧ BeginsWithQuote (unescape rest))) := by
  have hsymbols : unescape (quote s ++ rest) = (quote s).toList.map .char ++ unescape rest := by
    rw [unescape, String.toList_append, toList_quote, unescapeFrom_quoteChars, unescape]
  refine ⟨hsymbols, ?_, ?_, ?_⟩
  · rw [toList_quote]
    exact not_mem_quoteChars (.inl rfl) s.toList
  · rw [toList_quote]
    exact not_mem_quoteChars (.inr rfl) s.toList
  · rw [hsymbols, toList_quote, Token.next?_quoteChars, ← String.toList_eq_nil_iff]
    split
    · next hblock => exact iff_of_false (by simp) (not_not_intro hblock)
    · next hone => exact iff_of_true rfl hone

/-- A backslash is not a double quote, and the escape that it begins may still be one: the literal of the empty text and
this escape are no literal and a rest, for a compiler that knows text blocks. -/
theorem escaped_quote_opens_text_block :
    "\\u0022".toList.head? ≠ some '"'
      ∧ Token.next? true (unescape (quote "" ++ "\\u0022")) ≠ some (.text "".toList, unescape "\\u0022") := by
  decide +kernel

/-- A text that looks like the end of a literal and an escape is still read as it is. -/
example : Token.next? true (unescape (quote "\" \\u0022" ++ ");"))
    = some (.text "\" \\u0022".toList, [.char ')', .char ';']) := by
  decide +kernel

end EntityForge.Java
