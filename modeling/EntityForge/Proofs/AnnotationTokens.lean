import EntityForge.Java.Annotation
import EntityForge.Java.Identifier
import Mathlib.Data.List.Forall2

/-!
# Tokens of annotations

The words, string literals and marks of the text of an annotation, as a compiler cuts them. `Token.scan` refuses a
backslash that begins a Unicode escape, so there is nothing to resolve in a text before it is cut. `Token.Scans` says
that characters are cut into certain tokens whatever comes behind them, and holds of the pieces that annotations are
written of.
-/

namespace EntityForge.Java

/-! ## Tokens -/

/-- A lexical unit of an annotation. -/
inductive Token where
  /-- An identifier, a keyword or a numeral. -/
  | word (cs : List Char)
  /-- A string literal, with its escapes resolved. -/
  | text (cs : List Char)
  | mark (c : Char)
  deriving DecidableEq

namespace Token

/-- The characters that may stand between tokens. -/
def isGap (c : Char) : Bool :=
  c == ' ' || c == '\t' || c == '\n' || c == '\r' || c == '\x0c'

/-- The characters that are tokens of their own. -/
def isMark (c : Char) : Bool :=
  ['@', '(', ')', '{', '}', ',', '=', '.', '-'].contains c

/-- The character that a backslash and one letter stand for. -/
def escaped? : Char → Option Char
  | '"' => some '"'
  | '\'' => some '\''
  | '\\' => some '\\'
  | 'b' => some '\x08'
  | 'f' => some '\x0c'
  | 'n' => some '\n'
  | 'r' => some '\r'
  | 's' => some ' '
  | 't' => some '\t'
  | _ => none

/-- Where a scan stands: between tokens, or behind the first characters of one. -/
inductive Place where
  | between
  | word (before : List Char)
  | text (before : List Char)
  /-- Behind a backslash in a string literal. -/
  | escape (before : List Char)

/-- The token that a character between tokens is, if it is one, and the place behind it. -/
def begin? (c : Char) : Option (List Token × Place) :=
  if isGap c then some ([], .between)
  else if isIdentifierPart c then some ([], .word [c])
  else if c = '"' then some ([], .text [])
  else if isMark c then some ([.mark c], .between)
  else none

/-- The tokens that end with a character, and the place behind it. -/
def step? : Place → Char → Option (List Token × Place)
  | .between, c => begin? c
  | .word before, c =>
    if isIdentifierPart c then some ([], .word (before ++ [c]))
    else (begin? c).map fun (tokens, place) => (.word before :: tokens, place)
  | .text before, c =>
    if c = '"' then some ([.text before], .between)
    else if c = '\\' then some ([], .escape before)
    else if c = '\n' ∨ c = '\r' then none
    else some ([], .text (before ++ [c]))
  | .escape before, c => (escaped? c).map fun c => ([], .text (before ++ [c]))

/-- The tokens that end with the text. -/
def finish? : Place → Option (List Token)
  | .between => some []
  | .word before => some [.word before]
  | .text _ | .escape _ => none

/-- The tokens of the characters from a place on. -/
def scanFrom (place : Place) : List Char → Option (List Token)
  | [] => finish? place
  | c :: rest => (step? place c).bind fun (tokens, next) => (scanFrom next rest).map (tokens ++ ·)

/-- The tokens of a text, in order. -/
def scan (s : String) : Option (List Token) :=
  scanFrom .between s.toList

/-! ## Scanning what is written -/

/-- Whether a word that ends before these characters ends there. -/
def Stops (after : List Char) : Prop :=
  ∀ c ∈ after.head?, isIdentifierPart c = false

/-- The characters are scanned as the tokens wherever no word runs into what follows them. -/
def Scans (cs : List Char) (ts : List Token) : Prop :=
  ∀ after, Stops after → scanFrom .between (cs ++ after) = (scanFrom .between after).map (ts ++ ·)

/-- What follows may begin anew behind the characters. -/
def ScansMark (cs : List Char) (t : Token) : Prop :=
  ∀ after, Stops (cs ++ after) ∧ scanFrom .between (cs ++ after) = (scanFrom .between after).map (t :: ·)

theorem stops_nil : Stops [] := by
  simp [Stops]

theorem stops_cons {c : Char} (h : isIdentifierPart c = false) (after : List Char) : Stops (c :: after) := by
  simpa [Stops] using h

/-- Neither a blank nor a mark nor a quote stands in a word. -/
theorem not_isIdentifierPart {c : Char} (h : isGap c = true ∨ isMark c = true ∨ c = '"') :
    isIdentifierPart c = false := by
  have hascii : ['"', ' ', '\t', '\n', '\r', '\x0c', '@', '(', ')', '\x7b', '\x7d', ',', '=', '.', '-'].all
      (fun c => decide (c.toNat < 0x80 ∧ ¬(c.isAlpha = true ∨ c.isDigit = true ∨ c = '_' ∨ c = '$'))) = true := by
    decide
  have hc : c.toNat < 0x80 ∧ ¬(c.isAlpha = true ∨ c.isDigit = true ∨ c = '_' ∨ c = '$') := by
    refine of_decide_eq_true (List.all_eq_true.mp hascii c ?_)
    rcases h with h | h | rfl
    · simp only [isGap, Bool.or_eq_true, beq_iff_eq] at h
      rcases h with (((rfl | rfl) | rfl) | rfl) | rfl <;> decide
    · simp only [isMark, List.contains_iff_mem] at h
      exact List.mem_append_right ['"', ' ', '\t', '\n', '\r', '\x0c'] h
    · exact List.mem_cons_self
  rw [Bool.eq_false_iff]
  exact fun hpart => hc.2 (ascii_of_isIdentifierPart hpart hc.1)

theorem scanFrom_cons_of_step {place next : Place} {c : Char} {ts : List Token}
    (h : step? place c = some (ts, next)) (after : List Char) :
    scanFrom place (c :: after) = (scanFrom next after).map (ts ++ ·) := by
  rw [scanFrom, h]
  rfl

/-- A mark is a token of its own. -/
theorem scansMark {c : Char} (h : isMark c = true) : ScansMark [c] (.mark c) := by
  intro after
  have hpart := not_isIdentifierPart (.inr (.inl h))
  have hgap : isGap c = false ∧ c ≠ '"' := by
    have hall : ['@', '(', ')', '\x7b', '\x7d', ',', '=', '.', '-'].all
        (fun c => decide (isGap c = false ∧ c ≠ '"')) = true := by
      decide
    exact of_decide_eq_true (List.all_eq_true.mp hall c (by simpa [isMark] using h))
  have hbegin : step? .between c = some ([.mark c], .between) := by
    simp [step?, begin?, hgap, hpart, h]
  refine ⟨stops_cons hpart after, ?_⟩
  rw [List.singleton_append, scanFrom_cons_of_step hbegin]
  rfl

/-- A blank between tokens is skipped. -/
theorem scanFrom_gap_cons {c : Char} (hc : isGap c = true) (after : List Char) :
    scanFrom .between (c :: after) = scanFrom .between after := by
  have hbegin : step? .between c = some ([], .between) := by simp [step?, begin?, hc]
  rw [scanFrom_cons_of_step hbegin]
  cases scanFrom .between after <;> rfl

/-- A blank behind a mark is skipped. -/
theorem ScansMark.gap {cs : List Char} {t : Token} {c : Char} (h : ScansMark cs t) (hc : isGap c = true) :
    ScansMark (cs ++ [c]) t := by
  intro after
  obtain ⟨hstops, hscan⟩ := h (c :: after)
  rw [List.append_assoc, List.singleton_append]
  refine ⟨hstops, ?_⟩
  rw [hscan, scanFrom_gap_cons hc]

/-- A blank before a mark is skipped. -/
theorem ScansMark.gap_cons {cs : List Char} {t : Token} {c : Char} (hc : isGap c = true) (h : ScansMark cs t) :
    ScansMark (c :: cs) t := by
  intro after
  refine ⟨stops_cons (not_isIdentifierPart (.inl hc)) (cs ++ after), ?_⟩
  rw [List.cons_append, scanFrom_gap_cons hc, (h after).2]

/-- A blank before tokens is skipped. -/
theorem Scans.gap_cons {cs : List Char} {ts : List Token} {c : Char} (hc : isGap c = true) (h : Scans cs ts) :
    Scans (c :: cs) ts := by
  intro after hstops
  rw [List.cons_append, scanFrom_gap_cons hc, h after hstops]

/-- What is scanned as tokens before anything is scanned as these on its own. -/
theorem Scans.scanFrom_eq {cs : List Char} {ts : List Token} (h : Scans cs ts) :
    scanFrom .between cs = some ts := by
  have hall := h [] stops_nil
  rw [List.append_nil] at hall
  rw [hall]
  simp [scanFrom, finish?]

/-- A word is scanned up to its end. -/
theorem scanFrom_word {cs : List Char} (hcs : ∀ c ∈ cs, isIdentifierPart c = true) (before : List Char)
    {after : List Char} (hstops : Stops after) :
    scanFrom (.word before) (cs ++ after) = (scanFrom .between after).map (.word (before ++ cs) :: ·) := by
  induction cs generalizing before with
  | nil =>
    rw [List.nil_append, List.append_nil]
    cases after with
    | nil => rfl
    | cons c rest =>
      have hc : isIdentifierPart c = false := hstops c rfl
      cases hbegin : begin? c with
      | none => simp [scanFrom, step?, hc, hbegin]
      | some begun => simp [scanFrom, step?, hc, hbegin, Function.comp_def]
  | cons c rest ih =>
    have hc : isIdentifierPart c = true := hcs c List.mem_cons_self
    have hstep : step? (.word before) c = some ([], .word (before ++ [c])) := by simp [step?, hc]
    rw [List.cons_append, scanFrom_cons_of_step hstep, ih fun d hd => hcs d (List.mem_cons_of_mem c hd)]
    cases scanFrom .between after <;> simp

/-- A word is a token when it has characters. -/
theorem scans_word {cs : List Char} (hcs : ∀ c ∈ cs, isIdentifierPart c = true) (hne : cs ≠ []) :
    Scans cs [.word cs] := by
  intro after hstops
  cases cs with
  | nil => exact absurd rfl hne
  | cons c rest =>
    have hc : isIdentifierPart c = true := hcs c List.mem_cons_self
    have hgap : isGap c = false := by
      rw [Bool.eq_false_iff]
      intro hgap
      rw [not_isIdentifierPart (.inl hgap)] at hc
      exact absurd hc (by decide)
    have hbegin : step? .between c = some ([], .word [c]) := by simp [step?, begin?, hgap, hc]
    rw [List.cons_append, scanFrom_cons_of_step hbegin,
      scanFrom_word (fun d hd => hcs d (List.mem_cons_of_mem c hd)) [c] hstops]
    cases scanFrom .between after <;> simp

/-- A character of a string literal is scanned as what it stands for. -/
theorem scanFrom_escapeChar (c : Char) (before after : List Char) :
    scanFrom (.text before) (escapeChar c ++ after) = scanFrom (.text (before ++ [c])) after := by
  have hescaped : ∀ d, escaped? d = some c →
      scanFrom (.text before) ('\\' :: d :: after) = scanFrom (.text (before ++ [c])) after := by
    intro d hd
    have hslash : step? (.text before) '\\' = some ([], .escape before) := by simp [step?]
    have hletter : step? (.escape before) d = some ([], .text (before ++ [c])) := by simp [step?, hd]
    rw [scanFrom_cons_of_step hslash, scanFrom_cons_of_step hletter]
    simp
  unfold escapeChar
  split
  · exact hescaped '"' rfl
  · exact hescaped '\\' rfl
  · exact hescaped 'n' rfl
  · exact hescaped 'r' rfl
  · exact hescaped 't' rfl
  · next hquote hslash hfeed hreturn _ =>
    have hplain : step? (.text before) c = some ([], .text (before ++ [c])) := by
      rw [step?, if_neg hquote, if_neg hslash, if_neg (not_or.mpr ⟨hfeed, hreturn⟩)]
    rw [List.singleton_append, scanFrom_cons_of_step hplain]
    simp

/-- A string literal is a token. -/
theorem scanFrom_quoteChars (cs after : List Char) :
    scanFrom .between (quoteChars cs ++ after) = (scanFrom .between after).map (.text cs :: ·) := by
  have hbody : ∀ before, scanFrom (.text before) (cs.flatMap escapeChar ++ '"' :: after) =
      scanFrom (.text (before ++ cs)) ('"' :: after) := by
    induction cs with
    | nil => simp
    | cons c rest ih =>
      intro before
      rw [List.flatMap_cons, List.append_assoc, scanFrom_escapeChar, ih, List.append_assoc]
      rfl
  have hopen : step? .between '"' = some ([], .text []) := by
    have hpart : isIdentifierPart '"' = false := not_isIdentifierPart (.inr (.inr rfl))
    simp [step?, begin?, hpart, show isGap '"' = false from rfl]
  have hclose : step? (.text cs) '"' = some ([.text cs], .between) := by simp [step?]
  rw [quoteChars, List.cons_append, List.cons_append, scanFrom_cons_of_step hopen, List.append_assoc,
    List.singleton_append, hbody, List.nil_append, scanFrom_cons_of_step hclose]
  cases scanFrom .between after <;> simp

theorem scans_nil : Scans [] [] := by
  intro after _
  cases h : scanFrom .between after <;> simp [h]

theorem ScansMark.append {sep cs : List Char} {t : Token} {ts : List Token} (h : ScansMark sep t)
    (hcs : Scans cs ts) : Scans (sep ++ cs) (t :: ts) := by
  intro after hstops
  rw [List.append_assoc, (h (cs ++ after)).2, hcs after hstops, Option.map_map]
  rfl

theorem Scans.append_mark {cs sep cs' : List Char} {ts ts' : List Token} {t : Token} (h : Scans cs ts)
    (hsep : ScansMark sep t) (h' : Scans cs' ts') : Scans (cs ++ sep ++ cs') (ts ++ [t] ++ ts') := by
  intro after hstops
  obtain ⟨hends, hscan⟩ := hsep (cs' ++ after)
  rw [List.append_assoc, List.append_assoc, h _ hends, hscan, h' after hstops, Option.map_map, Option.map_map]
  congr 1
  funext others
  simp

/-- Pieces with a mark between them are scanned piece by piece. -/
theorem Scans.intercalate {sep : List Char} {t : Token} (hsep : ScansMark sep t) {pieces : List (List Char)}
    {tokens : List (List Token)} (h : List.Forall₂ Scans pieces tokens) :
    Scans (sep.intercalate pieces) ([t].intercalate tokens) := by
  induction h with
  | nil => exact scans_nil
  | cons hfirst hrest ih =>
    cases hrest with
    | nil => rwa [List.intercalate_singleton, List.intercalate_singleton]
    | cons hnext hothers =>
      rw [List.intercalate_cons_cons, List.intercalate_cons_cons]
      exact hfirst.append_mark hsep ih

theorem scans_identifier {name : String} (h : isIdentifier name = true) :
    Scans name.toList [.word name.toList] := by
  refine scans_word (fun c hc => isIdentifierPart_of_mem h hc) ?_
  intro hnil
  simp [isIdentifier, hnil] at h

theorem scans_quote (value : String) : Scans (quote value).toList [.text value.toList] := by
  intro after _
  rw [quote, String.toList_ofList, scanFrom_quoteChars]
  rfl

/-- The tokens of an integer: its digits, behind a minus if it is negative. -/
def ofInt (n : Int) : List Token :=
  (if n < 0 then [.mark '-'] else []) ++ [.word (Nat.toDigits 10 n.natAbs)]

theorem scans_int (n : Int) : Scans (toString n).toList (ofInt n) := by
  have hdigits : ∀ n : Nat, Scans (Nat.toDigits 10 n) [.word (Nat.toDigits 10 n)] := by
    intro n
    refine scans_word (fun c hc => ?_) Nat.toDigits_ne_nil
    have hc : c.isDigit = true := Nat.isDigit_of_mem_toDigits (by decide) (by decide) hc
    simp [isIdentifierPart, Text.isNumeric_of_isDigit hc]
  have hwritten : (toString n).toList = (if n < 0 then ['-'] else []) ++ Nat.toDigits 10 n.natAbs := by
    cases n <;> simp [toString, Int.repr]
  rw [hwritten, ofInt]
  by_cases hn : n < 0
  · rw [if_pos hn, if_pos hn]
    exact (scansMark (by decide)).append (hdigits _)
  · rw [if_neg hn, if_neg hn]
    exact hdigits _

/-- The tokens of a name with points in it. -/
def ofNames (parts : List String) : List Token :=
  [.mark '.'].intercalate (parts.map fun part => [.word part.toList])

theorem ofNames_cons_cons (first second : String) (others : List String) :
    ofNames (first :: second :: others) = .word first.toList :: .mark '.' :: ofNames (second :: others) := by
  simp [ofNames, List.intercalate_cons_cons]

theorem scans_names {parts : List String} (h : ∀ part ∈ parts, isIdentifier part = true) :
    Scans (".".intercalate parts).toList (ofNames parts) := by
  rw [String.toList_intercalate]
  refine Scans.intercalate (scansMark (c := '.') (by decide)) ?_
  rw [List.forall₂_map_left_iff, List.forall₂_map_right_iff, List.forall₂_same]
  exact fun part hpart => scans_identifier (h part hpart)

/-- A comma with a blank behind it. -/
theorem scansMark_comma : ScansMark [',', ' '] (.mark ',') :=
  (scansMark (c := ',') (by decide)).gap (by decide)

/-- Pieces between braces, with commas between them. -/
theorem scans_braced {pieces : List String} {tokens : List (List Token)}
    (h : List.Forall₂ (fun piece ts => Scans piece.toList ts) pieces tokens) :
    Scans (braced pieces).toList (.mark '\x7b' :: [.mark ','].intercalate tokens ++ [.mark '\x7d']) := by
  have hinner : Scans (", ".intercalate pieces).toList ([.mark ','].intercalate tokens) := by
    rw [String.toList_intercalate]
    exact Scans.intercalate scansMark_comma (List.forall₂_map_left_iff.mpr h)
  rw [braced, String.toList_append, String.toList_append]
  have hclosed := hinner.append_mark (scansMark (c := '\x7d') (by decide)) scans_nil
  rw [List.append_nil, List.append_nil] at hclosed
  rw [List.append_assoc, List.cons_append]
  exact (scansMark (c := '\x7b') (by decide)).append hclosed

end Token

end EntityForge.Java
