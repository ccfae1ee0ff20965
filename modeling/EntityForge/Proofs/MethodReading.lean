import EntityForge.Proofs.Lexemes
import EntityForge.Proofs.TextReading

/-!
# Bodies of methods read back

The statements of `equals` and `hashCode` as they are read from the text of a body, the way a compiler reads it: the text
is cut into lexemes, and these are read as expressions and statements. Multiplication binds closer than addition, a
negation and a cast closer than either, and the comparison of two operands stands alone, so that nothing can be read in
two ways. A numeral is read as the number it is, and words that the language reserves are not told from other names.

Main statements: `statements?_bodyText`, that a body without code written by hand is read as its statements, and
`spells_bodyText`, that in any body the text of each statement is read as this statement.
-/

namespace EntityForge.Java

/-! ## Reading expressions -/

namespace Expression

/-- The names with points between them that lexemes begin with, and the lexemes behind them. -/
def path? : List String → Option (List String × List String)
  | name :: "." :: rest =>
    if isIdentifier name then (path? rest).map fun (names, after) => (name :: names, after) else none
  | name :: rest => if isIdentifier name then some ([name], rest) else none
  | [] => none

/-- A call of a static method or a field of an object, given how arguments are read. -/
def named? (argument? : List String → Option (Expression × List String)) (lexemes : List String) :
    Option (Expression × List String) := do
  match ← path? lexemes with
  | (names, "(" :: rest) =>
    match ← argument? rest with
    | (argument, ")" :: rest) => some (.apply (".".intercalate names) argument, rest)
    | (first, "," :: rest) =>
      let (second, rest) ← argument? rest
      let rest ← rest.dropPrefix? [")"]
      some (.apply₂ (".".intercalate names) first second, rest)
    | _ => none
  | ([receiver, name], rest) => some (.field receiver name, rest)
  | _ => none

/-- The operand that lexemes begin with, and the lexemes behind it: a wide number that is folded, a truth value as a
number, a call or a field. Operands are nested up to a depth. -/
def operand? : Nat → List String → Option (Expression × List String)
  | 0, _ => none
  | depth + 1, "(" :: "int" :: ")" :: "(" :: rest => do
    let (wide, rest) ← operand? depth rest
    let rest ← rest.dropPrefix? ["^", "("]
    let (again, rest) ← operand? depth rest
    let rest ← rest.dropPrefix? [">>>", "32", ")", ")"]
    if again = wide then some (.folded wide, rest) else none
  | depth + 1, "(" :: rest => do
    let (condition, rest) ← operand? depth rest
    let rest ← rest.dropPrefix? ["?", "1", ":", "0", ")"]
    some (.bit condition, rest)
  | depth + 1, lexemes => named? (operand? depth) lexemes

/-- The condition that lexemes begin with, and the lexemes behind it: an operand, one that is negated, or two that are
compared. -/
def condition? (depth : Nat) : List String → Option (Expression × List String)
  | "!" :: rest => do
    let (condition, rest) ← operand? depth rest
    some (.negation condition, rest)
  | lexemes => do
    match ← operand? depth lexemes with
    | (left, "!=" :: rest) =>
      let (right, rest) ← operand? depth rest
      some (.unequal left right, rest)
    | (operand, rest) => some (operand, rest)

end Expression

/-! ## Reading statements -/

/-- The condition that lexemes begin with, and the lexemes behind it. -/
def Condition.read? : List String → Option (Condition × List String)
  | "obj" :: "==" :: "null" :: rest => some (.isNull, rest)
  | "getClass" :: "(" :: ")" :: "!=" :: "obj" :: "." :: "getClass" :: "(" :: ")" :: rest => some (.otherClass, rest)
  | lexemes => do
    let (condition, rest) ← Expression.condition? lexemes.length lexemes
    some (.holds condition, rest)

/-- The statement that lexemes begin with, and the lexemes behind it. -/
def Statement.read? : List String → Option (Statement × List String)
  | "if" :: "(" :: rest => do
    let (condition, rest) ← Condition.read? rest
    let rest ← rest.dropPrefix? [")", "\x7b", "return", "false", ";", "\x7d"]
    some (.refuseIf condition, rest)
  | "final" :: type :: "other" :: "=" :: "(" :: cast :: ")" :: "obj" :: ";" :: rest =>
    if isIdentifier type && cast = type then some (.castOther type, rest) else none
  | "int" :: "hash" :: "=" :: seed :: ";" :: rest => do
    some (.startHash (← numeral? seed.toList), rest)
  | "hash" :: "=" :: multiplier :: "*" :: "hash" :: "+" :: rest => do
    let multiplier ← numeral? multiplier.toList
    let (term, rest) ← Expression.operand? rest.length rest
    let rest ← rest.dropPrefix? [";"]
    some (.mixHash multiplier term, rest)
  | "return" :: "true" :: ";" :: rest => some (.returnTrue, rest)
  | "return" :: "hash" :: ";" :: rest => some (.returnHash, rest)
  | _ => none

/-- The statements that lexemes are, up to a number of them. -/
def Statement.readAll? : Nat → List String → Option (List Statement)
  | _, [] => some []
  | 0, _ :: _ => none
  | most + 1, lexemes => do
    let (statement, rest) ← Statement.read? lexemes
    let others ← readAll? most rest
    some (statement :: others)

/-- The statements that a text is read as. There are never more of them than lexemes. -/
def statements? (text : String) : Option (List Statement) := do
  let lexemes ← Lexeme.ofText? text
  Statement.readAll? lexemes.length lexemes

example : statements? "int hash = 7;\nhash = 31 * hash + (int) (this.id ^ (this.id >>> 32));\nreturn hash;"
    = some [.startHash 7, .mixHash 31 (.folded (.this "id")), .returnHash] := by
  decide +kernel

/-! ## Expressions as they are written -/

namespace Expression

/-- The lexemes go on with neither a point nor arguments. -/
def Stops (lexemes : List String) : Prop :=
  ∀ lexeme ∈ lexemes.head?, lexeme ≠ "." ∧ lexeme ≠ "("

theorem stops_cons {lexeme : String} (h : lexeme ≠ "." ∧ lexeme ≠ "(") (rest : List String) :
    Stops (lexeme :: rest) := by
  simpa [Stops] using h

/-- The text of the expression is cut into the lexemes, and these are read as the expression, whatever is behind it. -/
structure IsOperand (e : Expression) (lexemes : List String) : Prop where
  cut : Lexeme.ofText? e.text = some lexemes
  read : ∀ (depth : Nat) (rest : List String), lexemes.length ≤ depth → Stops rest →
    operand? depth (lexemes ++ rest) = some (e, rest)

/-- The lexemes of a name with points in it. -/
def pathLexemes (names : List String) : List String :=
  ["."].intercalate (names.map ([·]))

theorem pathLexemes_cons_cons (first second : String) (others : List String) :
    pathLexemes (first :: second :: others) = first :: "." :: pathLexemes (second :: others) := by
  simp [pathLexemes, List.intercalate_cons_cons]

theorem ofText?_path {names : List String} (hne : names ≠ []) (h : ∀ name ∈ names, isIdentifier name = true) :
    Lexeme.ofText? (".".intercalate names) = some (pathLexemes names) := by
  induction names with
  | nil => exact absurd rfl hne
  | cons name rest ih =>
    rw [List.forall_mem_cons] at h
    have hname := Lexeme.ofText?_identifier h.1
    cases rest with
    | nil => simpa [pathLexemes] using hname
    | cons next others =>
      have hrest := ih (List.cons_ne_nil next others) h.2
      rw [String.intercalate_cons_cons, pathLexemes_cons_cons,
        Lexeme.ofText?_between ⟨by decide, by decide⟩ hname (by decide +kernel : Lexeme.ofText? "." = some ["."]) hrest]
      rfl

theorem path?_pathLexemes {names : List String} (hne : names ≠ []) (h : ∀ name ∈ names, isIdentifier name = true)
    (rest : List String) (hrest : ∀ lexeme ∈ rest.head?, lexeme ≠ ".") :
    path? (pathLexemes names ++ rest) = some (names, rest) := by
  induction names with
  | nil => exact absurd rfl hne
  | cons name others ih =>
    rw [List.forall_mem_cons] at h
    cases others with
    | nil =>
      have hlast : ∀ after, rest ≠ "." :: after := by
        rintro after rfl
        exact hrest "." rfl rfl
      have hname : path? (name :: rest) = if isIdentifier name = true then some ([name], rest) else none := by
        cases rest with
        | nil => rfl
        | cons lexeme after => rw [path?]; intro after' heq; exact hlast after' heq
      simpa [pathLexemes, h.1] using hname
    | cons next others =>
      have hothers := ih (List.cons_ne_nil next others) h.2
      rw [pathLexemes_cons_cons, List.cons_append, List.cons_append, path?, if_pos h.1, hothers]
      rfl

/-- Lexemes that are expected are passed over. -/
theorem dropPrefix?_append (expected rest : List String) : (expected ++ rest).dropPrefix? expected = some rest :=
  List.dropPrefix?_append_of_beq rest (beq_self_eq_true expected)

variable {receiver name : String} {first second wide condition : Expression} {xs ys : List String}

theorem operand?_of_head? {depth : Nat} {lexemes : List String} (h : lexemes.head? ≠ some "(") :
    operand? (depth + 1) lexemes = named? (operand? depth) lexemes := by
  rw [operand?]
  · rintro rest rfl
    exact h rfl
  · rintro rest rfl
    exact h rfl

theorem head?_pathLexemes {names : List String} (hne : names ≠ []) (h : ∀ name ∈ names, isIdentifier name = true)
    (rest : List String) : (pathLexemes names ++ rest).head? ≠ some "(" := by
  have hparenthesis : isIdentifier "(" = false := by decide
  cases names with
  | nil => exact absurd rfl hne
  | cons name others =>
    have hname : name ≠ "(" := by
      rintro rfl
      simpa [hparenthesis] using h "(" List.mem_cons_self
    cases others with
    | nil => simpa [pathLexemes] using hname
    | cons next others => simpa [pathLexemes_cons_cons] using hname

theorem isOperand_field (hreceiver : isIdentifier receiver = true) (hname : isIdentifier name = true) :
    (field receiver name).IsOperand (pathLexemes [receiver, name]) where
  cut := by
    have hnames : ∀ n ∈ [receiver, name], isIdentifier n = true := by simp [hreceiver, hname]
    have hpath := ofText?_path (List.cons_ne_nil receiver [name]) hnames
    simpa [text, String.intercalate_cons_cons] using hpath
  read depth rest hdepth hstops := by
    have hnames : ∀ n ∈ [receiver, name], isIdentifier n = true := by simp [hreceiver, hname]
    obtain ⟨depth, rfl⟩ : ∃ d, depth = d + 1 := ⟨depth - 1, by simp [pathLexemes] at hdepth; omega⟩
    have hpath := path?_pathLexemes (by simp) hnames rest fun lexeme h => (hstops lexeme h).1
    rw [operand?_of_head? (head?_pathLexemes (by simp) hnames rest), named?, hpath, Option.bind_eq_bind,
      Option.bind_some]
    split
    · next heq =>
      rw [Prod.mk.injEq] at heq
      exact absurd rfl (hstops "(" (by rw [heq.2]; rfl)).2
    · next heq =>
      cases heq
      rfl
    · next hother => exact absurd rfl (hother receiver name rest)

/-- A static method applied to one value. -/
theorem IsOperand.apply {names : List String} (hne : names ≠ []) (h : ∀ name ∈ names, isIdentifier name = true)
    (hfirst : first.IsOperand xs) :
    (Expression.apply (".".intercalate names) first).IsOperand (pathLexemes names ++ ["("] ++ xs ++ [")"]) where
  cut := by
    have hopen : Lexeme.ofText? "(" = some ["("] := by decide +kernel
    have hclose : Lexeme.ofText? ")" = some [")"] := by decide +kernel
    exact Lexeme.ofText?_append (.inr (by decide))
      (Lexeme.ofText?_between ⟨by decide, by decide⟩ (ofText?_path hne h) hopen hfirst.cut) hclose
  read depth rest hdepth _ := by
    simp only [List.length_append, List.length_singleton] at hdepth
    obtain ⟨depth, rfl⟩ : ∃ d, depth = d + 1 := ⟨depth - 1, by omega⟩
    have hpath := path?_pathLexemes hne h ("(" :: (xs ++ ")" :: rest)) (by simp)
    have hargument := hfirst.read depth (")" :: rest) (by omega) (stops_cons (by decide) rest)
    have hlexemes : pathLexemes names ++ ["("] ++ xs ++ [")"] ++ rest
        = pathLexemes names ++ ("(" :: (xs ++ ")" :: rest)) := by simp
    rw [hlexemes, operand?_of_head? (head?_pathLexemes hne h _), named?, hpath, Option.bind_eq_bind, Option.bind_some]
    show (operand? depth (xs ++ ")" :: rest)).bind _ = _
    rw [hargument]
    rfl

/-- A static method applied to two values. -/
theorem IsOperand.apply₂ {names : List String} (hne : names ≠ []) (h : ∀ name ∈ names, isIdentifier name = true)
    (hfirst : first.IsOperand xs) (hsecond : second.IsOperand ys) :
    (Expression.apply₂ (".".intercalate names) first second).IsOperand
      (pathLexemes names ++ ["("] ++ xs ++ [","] ++ ys ++ [")"]) where
  cut := by
    have hopen : Lexeme.ofText? "(" = some ["("] := by decide +kernel
    have hcomma : Lexeme.ofText? ", " = some [","] := by decide +kernel
    have hclose : Lexeme.ofText? ")" = some [")"] := by decide +kernel
    have hcall := Lexeme.ofText?_between ⟨by decide, by decide⟩ (ofText?_path hne h) hopen hfirst.cut
    exact Lexeme.ofText?_append (.inr (by decide))
      (Lexeme.ofText?_between ⟨by decide, by decide⟩ hcall hcomma hsecond.cut) hclose
  read depth rest hdepth _ := by
    simp only [List.length_append, List.length_singleton] at hdepth
    obtain ⟨depth, rfl⟩ : ∃ d, depth = d + 1 := ⟨depth - 1, by omega⟩
    have hpath := path?_pathLexemes hne h ("(" :: (xs ++ "," :: (ys ++ ([")"] ++ rest)))) (by simp)
    have hleft := hfirst.read depth ("," :: (ys ++ ([")"] ++ rest))) (by omega) (stops_cons (by decide) _)
    have hright := hsecond.read depth ([")"] ++ rest) (by omega) (stops_cons (by decide) rest)
    have hlexemes : pathLexemes names ++ ["("] ++ xs ++ [","] ++ ys ++ [")"] ++ rest
        = pathLexemes names ++ ("(" :: (xs ++ "," :: (ys ++ ([")"] ++ rest)))) := by simp
    rw [hlexemes, operand?_of_head? (head?_pathLexemes hne h _), named?, hpath]
    simp only [Option.bind_eq_bind, Option.bind_some, hleft, hright, dropPrefix?_append]

/-- A name without a point or arguments behind it is no operand. -/
theorem operand?_of_lone (hname : isIdentifier name = true) (depth : Nat) {lexeme : String}
    (hlexeme : lexeme ≠ "." ∧ lexeme ≠ "(") (rest : List String) : operand? depth (name :: lexeme :: rest) = none := by
  cases depth with
  | zero => rfl
  | succ depth =>
    have hnames : ∀ n ∈ [name], isIdentifier n = true := by simp [hname]
    have hpath := path?_pathLexemes (by simp) hnames (lexeme :: rest) (by simp [hlexeme.1])
    show operand? (depth + 1) (pathLexemes [name] ++ lexeme :: rest) = none
    rw [operand?_of_head? (head?_pathLexemes (by simp) hnames _), named?, hpath, Option.bind_eq_bind, Option.bind_some]
    split
    · next heq =>
      rw [Prod.mk.injEq, List.cons.injEq] at heq
      exact absurd heq.2.1 hlexeme.2
    · next heq =>
      rw [Prod.mk.injEq] at heq
      exact absurd heq.1 (by simp)
    · rfl

/-- What begins with neither a parenthesis nor a name is no operand. -/
theorem operand?_of_not_isIdentifier {lexeme : String} (h : isIdentifier lexeme = false) (hne : lexeme ≠ "(")
    (depth : Nat) (rest : List String) : operand? depth (lexeme :: rest) = none := by
  cases depth with
  | zero => rfl
  | succ depth =>
    have hpath : path? (lexeme :: rest) = none := by
      unfold path?
      split
      · next heq => simp [← (List.cons.inj heq).1, h]
      · next heq => simp [← (List.cons.inj heq).1, h]
      · rfl
    rw [operand?_of_head? (by simpa using hne), named?, hpath]
    rfl

/-- A truth value as a number. -/
theorem IsOperand.bit (h : condition.IsOperand xs) :
    (Expression.bit condition).IsOperand (["("] ++ xs ++ ["?", "1", ":", "0", ")"]) where
  cut := by
    have hopen : Lexeme.ofText? "(" = some ["("] := by decide +kernel
    have hclose : Lexeme.ofText? " ? 1 : 0)" = some ["?", "1", ":", "0", ")"] := by decide +kernel
    exact Lexeme.ofText?_append (.inr (by decide)) (Lexeme.ofText?_append (.inl (by decide)) hopen h.cut) hclose
  read depth rest hdepth _ := by
    simp only [List.length_append, List.length_singleton] at hdepth
    obtain ⟨depth, rfl⟩ : ∃ d, depth = d + 1 := ⟨depth - 1, by omega⟩
    have hread := h.read depth (["?", "1", ":", "0", ")"] ++ rest) (by omega) (stops_cons (by decide) _)
    have hlexemes : ["("] ++ xs ++ ["?", "1", ":", "0", ")"] ++ rest
        = "(" :: (xs ++ (["?", "1", ":", "0", ")"] ++ rest)) := by simp
    rw [hlexemes, operand?]
    · simp only [Option.bind_eq_bind, Option.bind_some, hread, dropPrefix?_append]
    -- What is in parentheses is not the type of a cast, because it is read as an operand.
    · intro after hcast
      rw [hcast, operand?_of_lone (by decide) depth (by decide)] at hread
      exact absurd hread (by simp)

/-- A wide number that is folded. -/
theorem IsOperand.folded (h : wide.IsOperand xs) :
    (Expression.folded wide).IsOperand
      (["(", "int", ")", "("] ++ xs ++ ["^", "("] ++ xs ++ [">>>", "32", ")", ")"]) where
  cut := by
    have hcast : Lexeme.ofText? "(int) (" = some ["(", "int", ")", "("] := by decide +kernel
    have hover : Lexeme.ofText? " ^ (" = some ["^", "("] := by decide +kernel
    have hshift : Lexeme.ofText? " >>> 32))" = some [">>>", "32", ")", ")"] := by decide +kernel
    have hupper := Lexeme.ofText?_append (.inl (by decide)) hcast h.cut
    exact Lexeme.ofText?_append (.inr (by decide))
      (Lexeme.ofText?_between ⟨by decide, by decide⟩ hupper hover h.cut) hshift
  read depth rest hdepth _ := by
    simp only [List.length_append, List.length_cons, List.length_nil] at hdepth
    obtain ⟨depth, rfl⟩ : ∃ d, depth = d + 1 := ⟨depth - 1, by omega⟩
    have hlower := h.read depth ([">>>", "32", ")", ")"] ++ rest) (by omega) (stops_cons (by decide) _)
    have hupper := h.read depth (["^", "("] ++ (xs ++ ([">>>", "32", ")", ")"] ++ rest))) (by omega)
      (stops_cons (by decide) _)
    have hlexemes : ["(", "int", ")", "("] ++ xs ++ ["^", "("] ++ xs ++ [">>>", "32", ")", ")"] ++ rest
        = "(" :: "int" :: ")" :: "(" :: (xs ++ (["^", "("] ++ (xs ++ ([">>>", "32", ")", ")"] ++ rest)))) := by simp
    rw [hlexemes, operand?]
    simp only [Option.bind_eq_bind, Option.bind_some, hupper, hlower, dropPrefix?_append, if_true]

end Expression

/-! ## Conditions as they are written -/

namespace Expression

/-- The text of the expression is cut into the lexemes, and these are read as a condition before a parenthesis. -/
structure IsCondition (e : Expression) (lexemes : List String) : Prop where
  cut : Lexeme.ofText? e.text = some lexemes
  read : ∀ (depth : Nat) (rest : List String), lexemes.length ≤ depth →
    condition? depth (lexemes ++ ")" :: rest) = some (e, ")" :: rest)

/-- Two operands that are compared. -/
theorem IsOperand.unequal {left right : Expression} (hleft : left.IsOperand xs) (hright : right.IsOperand ys) :
    (Expression.unequal left right).IsCondition (xs ++ ["!="] ++ ys) where
  cut := Lexeme.ofText?_between ⟨by decide, by decide⟩ hleft.cut
    (by decide +kernel : Lexeme.ofText? " != " = some ["!="]) hright.cut
  read depth rest hdepth := by
    simp only [List.length_append, List.length_singleton] at hdepth
    have hreadleft := hleft.read depth ("!=" :: (ys ++ ")" :: rest)) (by omega) (stops_cons (by decide) _)
    have hreadright := hright.read depth (")" :: rest) (by omega) (stops_cons (by decide) rest)
    have hlexemes : xs ++ ["!="] ++ ys ++ ")" :: rest = xs ++ "!=" :: (ys ++ ")" :: rest) := by simp
    rw [hlexemes, condition?]
    · simp only [Option.bind_eq_bind, Option.bind_some, hreadleft, hreadright]
    · intro after hnegation
      rw [hnegation, operand?_of_not_isIdentifier (by decide) (by decide)] at hreadleft
      exact absurd hreadleft (by simp)

/-- An operand that is negated. -/
theorem IsOperand.negation (h : condition.IsOperand xs)
    (hhead : ∀ c ∈ condition.text.toList.head?, isIdentifierPart c = true) :
    (Expression.negation condition).IsCondition ("!" :: xs) where
  cut := Lexeme.ofText?_negation hhead h.cut
  read depth rest hdepth := by
    rw [List.length_cons] at hdepth
    have hread := h.read depth (")" :: rest) (by omega) (stops_cons (by decide) rest)
    rw [List.cons_append, condition?]
    simp only [Option.bind_eq_bind, Option.bind_some, hread]

/-- Neither a variable nor a call without arguments is an operand. -/
theorem condition?_ofObject (depth : Nat) (rest : List String) :
    condition? depth ("obj" :: "==" :: rest) = none ∧ condition? depth ("getClass" :: "(" :: ")" :: rest) = none := by
  constructor
  · have hvariable : operand? depth ("obj" :: "==" :: rest) = none := operand?_of_lone (by decide) depth (by decide) rest
    rw [condition?, hvariable]
    · rfl
    · simp
  · have hcall : operand? depth ("getClass" :: "(" :: ")" :: rest) = none := by
      cases depth with
      | zero => rfl
      | succ depth =>
        have hargument : operand? depth (")" :: rest) = none :=
          operand?_of_not_isIdentifier (by decide) (by decide) depth rest
        have hname : ∀ n ∈ ["getClass"], isIdentifier n = true := by decide
        have hpath := path?_pathLexemes (by simp) hname ("(" :: ")" :: rest) (by simp)
        show operand? (depth + 1) (pathLexemes ["getClass"] ++ "(" :: ")" :: rest) = none
        rw [operand?_of_head? (head?_pathLexemes (by simp) hname _), named?, hpath, Option.bind_eq_bind,
          Option.bind_some]
        simp only [hargument, Option.bind_eq_bind, Option.bind_none]
    rw [condition?, hcall]
    · rfl
    · simp

/-- A condition on fields is not taken for one on objects. -/
theorem IsCondition.read?_holds {e : Expression} (h : e.IsCondition xs) (rest : List String) :
    Condition.read? (xs ++ ")" :: rest) = some (.holds e, ")" :: rest) := by
  have hread := h.read (xs ++ ")" :: rest).length rest (by rw [List.length_append]; exact Nat.le_add_right _ _)
  generalize xs ++ ")" :: rest = lexemes at hread ⊢
  rw [Condition.read?, hread]
  · rfl
  · rintro after rfl
    rw [(condition?_ofObject _ _).1] at hread
    exact absurd hread (by simp)
  · rintro after rfl
    rw [(condition?_ofObject _ _).2] at hread
    exact absurd hread (by simp)

end Expression

/-! ## Shapes -/

namespace Shape

open Expression

variable {name : String}

theorem isOperand_this (h : isIdentifier name = true) : (Expression.this name).IsOperand (pathLexemes ["this", name]) :=
  isOperand_field (by decide) h

/-- What a field contributes to a hash code is an operand. -/
theorem exists_isOperand_hashTerm (shape : Shape) (h : isIdentifier name = true) :
    ∃ lexemes, (shape.hashTerm name).IsOperand lexemes := by
  have hthis := isOperand_this h
  have hcall : ∀ names : List String, names ≠ [] → (∀ n ∈ names, isIdentifier n = true) →
      ∃ lexemes, (Expression.apply (".".intercalate names) (Expression.this name)).IsOperand lexemes :=
    fun names hne hnames => ⟨_, hthis.apply hne hnames⟩
  cases shape with
  | primitive type =>
    cases type with
    | boolean => exact ⟨_, hthis.bit⟩
    | long => exact ⟨_, hthis.folded⟩
    | byte | char | short | int => exact ⟨_, hthis⟩
  | floating type =>
    cases type with
    | float => exact hcall ["Float", "floatToIntBits"] (by decide) (by decide)
    | double =>
      obtain ⟨lexemes, hbits⟩ := hcall ["Double", "doubleToLongBits"] (by decide) (by decide)
      exact ⟨_, hbits.folded⟩
  | array nested =>
    cases nested with
    | false => exact hcall ["java", "util", "Arrays", "hashCode"] (by decide) (by decide)
    | true => exact hcall ["java", "util", "Arrays", "deepHashCode"] (by decide) (by decide)
  | object => exact hcall ["java", "util", "Objects", "hashCode"] (by decide) (by decide)

/-- The condition that a field differs is one. -/
theorem exists_isCondition_differs (shape : Shape) (h : isIdentifier name = true) :
    ∃ lexemes, (shape.differs name).IsCondition lexemes := by
  have hthis := isOperand_this h
  have hother : (Expression.other name).IsOperand (pathLexemes ["other", name]) := isOperand_field (by decide) h
  have hbits : ∀ names : List String, names ≠ [] → (∀ n ∈ names, isIdentifier n = true) → ∃ lexemes,
      (Expression.unequal (.apply (".".intercalate names) (.this name))
        (.apply (".".intercalate names) (.other name))).IsCondition lexemes :=
    fun names hne hnames => ⟨_, (hthis.apply hne hnames).unequal (hother.apply hne hnames)⟩
  have hmethod : ∀ names : List String, names ≠ [] → (∀ n ∈ names, isIdentifier n = true) →
      (".".intercalate names).toList.head?.any isIdentifierPart = true → ∃ lexemes,
      (Expression.negation (.apply₂ (".".intercalate names) (.this name) (.other name))).IsCondition lexemes := by
    intro names hne hnames hhead
    refine ⟨_, (hthis.apply₂ hne hnames hother).negation ?_⟩
    obtain ⟨c, hc, hpart⟩ := (Option.any_eq_true _ _).mp hhead
    have hfirst : (text (.apply₂ (".".intercalate names) (.this name) (.other name))).toList.head? = some c := by
      simp only [text, String.toList_append, List.head?_append, hc, Option.some_or]
    intro e he
    rw [hfirst, Option.mem_some_iff] at he
    rwa [← he]
  cases shape with
  | primitive type => exact ⟨_, hthis.unequal hother⟩
  | floating type =>
    cases type with
    | float => exact hbits ["Float", "floatToIntBits"] (by decide) (by decide)
    | double => exact hbits ["Double", "doubleToLongBits"] (by decide) (by decide)
  | array nested =>
    cases nested with
    | false => exact hmethod ["java", "util", "Arrays", "equals"] (by decide) (by decide) (by decide)
    | true => exact hmethod ["java", "util", "Arrays", "deepEquals"] (by decide) (by decide) (by decide)
  | object => exact hmethod ["java", "util", "Objects", "equals"] (by decide) (by decide) (by decide)

end Shape

/-! ## Statements as they are written -/

theorem numeral?_toString (n : Nat) : numeral? (toString n).toList = some n := by
  have hdigits : (toString n).toList = Nat.toDigits 10 n := by simp [toString, Nat.repr]
  rw [hdigits, numeral?_toDigits]

namespace Statement

/-- The lines of a statement with line feeds between them. -/
def text (s : Statement) : String :=
  "\n".intercalate s.lines

/-- The text of the statement is cut into the lexemes, and these are read as the statement, whatever is behind it. -/
structure IsRead (s : Statement) (lexemes : List String) : Prop where
  cut : Lexeme.ofText? s.text = some lexemes
  nonempty : lexemes ≠ []
  read : ∀ rest : List String, read? (lexemes ++ rest) = some (s, rest)

theorem isRead_refuseIf {condition : Condition} {xs : List String}
    (hcut : Lexeme.ofText? condition.text = some xs)
    (hread : ∀ rest, Condition.read? (xs ++ ")" :: rest) = some (condition, ")" :: rest)) :
    (refuseIf condition).IsRead (["if", "("] ++ xs ++ [")", "\x7b", "return", "false", ";", "\x7d"]) where
  cut := by
    have htext : (refuseIf condition).text = "if (" ++ condition.text ++ ") \x7b\n    return false;\n\x7d" := by
      simp only [text, lines, String.intercalate_cons_cons, String.intercalate_singleton, String.append_assoc]
      rfl
    have hopen : Lexeme.ofText? "if (" = some ["if", "("] := by decide +kernel
    have hblock : Lexeme.ofText? ") \x7b\n    return false;\n\x7d"
        = some [")", "\x7b", "return", "false", ";", "\x7d"] := by
      decide +kernel
    rw [htext]
    exact Lexeme.ofText?_append (.inr (by decide)) (Lexeme.ofText?_append (.inl (by decide)) hopen hcut) hblock
  nonempty := by simp
  read rest := by
    have hlexemes : ["if", "("] ++ xs ++ [")", "\x7b", "return", "false", ";", "\x7d"] ++ rest
        = "if" :: "(" :: (xs ++ ([")", "\x7b", "return", "false", ";", "\x7d"] ++ rest)) := by simp
    have hcondition : Condition.read? (xs ++ ([")", "\x7b", "return", "false", ";", "\x7d"] ++ rest))
        = some (condition, [")", "\x7b", "return", "false", ";", "\x7d"] ++ rest) := hread _
    rw [hlexemes, read?]
    simp only [Option.bind_eq_bind, Option.bind_some, hcondition, Expression.dropPrefix?_append]

theorem isRead_castOther {className : String} (h : isIdentifier className = true) :
    (castOther className).IsRead (["final"] ++ [className] ++ ["other", "=", "("] ++ [className] ++ [")", "obj", ";"])
    where
  cut := by
    have hfinal : Lexeme.ofText? "final " = some ["final"] := by decide +kernel
    have hother : Lexeme.ofText? " other = (" = some ["other", "=", "("] := by decide +kernel
    have hobj : Lexeme.ofText? ") obj;" = some [")", "obj", ";"] := by decide +kernel
    have hname := Lexeme.ofText?_identifier h
    rw [text, lines, String.intercalate_singleton]
    exact Lexeme.ofText?_append (.inr (by decide))
      (Lexeme.ofText?_between ⟨by decide, by decide⟩ (Lexeme.ofText?_append (.inl (by decide)) hfinal hname) hother hname)
      hobj
  nonempty := by simp
  read rest := by
    show read? ("final" :: className :: "other" :: "=" :: "(" :: className :: ")" :: "obj" :: ";" :: rest) = _
    rw [read?]
    simp [h]

theorem isRead_startHash (seed : Nat) :
    (startHash seed).IsRead (["int", "hash", "="] ++ [toString seed] ++ [";"]) where
  cut := by
    have hint : Lexeme.ofText? "int hash = " = some ["int", "hash", "="] := by decide +kernel
    have hend : Lexeme.ofText? ";" = some [";"] := by decide +kernel
    rw [text, lines, String.intercalate_singleton]
    exact Lexeme.ofText?_append (.inr (by decide))
      (Lexeme.ofText?_append (.inl (by decide)) hint (Lexeme.ofText?_toString seed)) hend
  nonempty := by simp
  read rest := by
    show read? ("int" :: "hash" :: "=" :: toString seed :: ";" :: rest) = _
    rw [read?, numeral?_toString]
    rfl

theorem isRead_mixHash (multiplier : Nat) {term : Expression} {xs : List String} (h : term.IsOperand xs) :
    (mixHash multiplier term).IsRead
      (["hash", "="] ++ [toString multiplier] ++ ["*", "hash", "+"] ++ xs ++ [";"]) where
  cut := by
    have hopen : Lexeme.ofText? "hash = " = some ["hash", "="] := by decide +kernel
    have htimes : Lexeme.ofText? " * hash + " = some ["*", "hash", "+"] := by decide +kernel
    have hend : Lexeme.ofText? ";" = some [";"] := by decide +kernel
    rw [text, lines, String.intercalate_singleton]
    exact Lexeme.ofText?_append (.inr (by decide))
      (Lexeme.ofText?_between ⟨by decide, by decide⟩
        (Lexeme.ofText?_append (.inl (by decide)) hopen (Lexeme.ofText?_toString multiplier)) htimes h.cut) hend
  nonempty := by simp
  read rest := by
    have hlexemes : ["hash", "="] ++ [toString multiplier] ++ ["*", "hash", "+"] ++ xs ++ [";"] ++ rest
        = "hash" :: "=" :: toString multiplier :: "*" :: "hash" :: "+" :: (xs ++ ([";"] ++ rest)) := by simp
    have hterm := h.read (xs ++ ([";"] ++ rest)).length ([";"] ++ rest)
      (by rw [List.length_append]; exact Nat.le_add_right _ _) (Expression.stops_cons (by decide) rest)
    rw [hlexemes, read?]
    simp only [Option.bind_eq_bind, Option.bind_some, numeral?_toString, hterm, Expression.dropPrefix?_append]

theorem isRead_returnTrue : returnTrue.IsRead ["return", "true", ";"] where
  cut := by decide +kernel
  nonempty := by simp
  read rest := rfl

theorem isRead_returnHash : returnHash.IsRead ["return", "hash", ";"] where
  cut := by decide +kernel
  nonempty := by simp
  read rest := rfl

end Statement

/-! ## Bodies -/

/-- Statements that are read one by one are read one after the other. -/
theorem Statement.readAll?_flatten {statements : List Statement} {lexemes : List (List String)}
    (h : List.Forall₂ Statement.IsRead statements lexemes) {most : Nat} (hmost : lexemes.flatten.length ≤ most) :
    Statement.readAll? most lexemes.flatten = some statements := by
  induction h generalizing most with
  | nil => simp [readAll?]
  | @cons s xs statements lexemes hs _ ih =>
    have hpos : 0 < xs.length := List.length_pos_iff.mpr hs.nonempty
    rw [List.flatten_cons, List.length_append] at hmost
    obtain ⟨most, rfl⟩ : ∃ n, most = n + 1 := ⟨most - 1, by omega⟩
    have hothers : readAll? most lexemes.flatten = some statements := ih (by omega)
    rw [List.flatten_cons, readAll?]
    · simp only [Option.bind_eq_bind, Option.bind_some, hs.read, hothers]
    · simp [hs.nonempty]

/-- Every statement has a line. -/
theorem Statement.lines_ne_nil (s : Statement) : s.lines ≠ [] := by
  cases s <;> simp [lines]

theorem intercalate_append {sep : String} {front back : List String} (hfront : front ≠ []) (hback : back ≠ []) :
    sep.intercalate (front ++ back) = sep.intercalate front ++ sep ++ sep.intercalate back := by
  induction front with
  | nil => exact absurd rfl hfront
  | cons first rest ih =>
    cases rest with
    | nil => rw [List.singleton_append, String.intercalate_cons_of_ne_nil hback, String.intercalate_singleton]
    | cons next others =>
      rw [List.cons_append, String.intercalate_cons_of_ne_nil (by simp), ih (List.cons_ne_nil next others),
        String.intercalate_cons_cons]
      simp only [String.append_assoc]

/-- The text of a body is made of the texts of its statements, with line feeds between them. -/
theorem bodyText_eq (statements : List Statement) :
    bodyText statements = "\n".intercalate (statements.map Statement.text) := by
  induction statements with
  | nil => rfl
  | cons s rest ih =>
    cases rest with
    | nil => rw [bodyText, List.flatMap_singleton, List.map_singleton, String.intercalate_singleton, Statement.text]
    | cons next others =>
      have hbehind : (next :: others).flatMap Statement.lines ≠ [] := by
        rw [List.flatMap_cons]
        exact List.append_ne_nil_of_left_ne_nil next.lines_ne_nil _
      rw [bodyText] at ih
      rw [bodyText, List.flatMap_cons, intercalate_append s.lines_ne_nil hbehind, ih,
        List.map_cons (f := Statement.text) (a := s), String.intercalate_cons_of_ne_nil (by simp)]
      rfl

/-- **A body is read as its statements**, when each of them is read on its own. -/
theorem statements?_bodyText {statements : List Statement}
    (h : ∀ s ∈ statements, ∃ lexemes, s.IsRead lexemes) : statements? (bodyText statements) = some statements := by
  obtain ⟨lexemes, hall⟩ : ∃ lexemes, List.Forall₂ Statement.IsRead statements lexemes := by
    induction statements with
    | nil => exact ⟨[], .nil⟩
    | cons s rest ih =>
      rw [List.forall_mem_cons] at h
      obtain ⟨xs, hs⟩ := h.1
      obtain ⟨lexemes, hrest⟩ := ih h.2
      exact ⟨xs :: lexemes, .cons hs hrest⟩
  have hcut : Lexeme.ofText? (bodyText statements) = some lexemes.flatten := by
    rw [bodyText_eq]
    exact Lexeme.ofText?_intercalate (List.forall₂_map_left_iff.mpr (hall.imp fun _ _ hs => hs.cut))
  rw [statements?, hcut]
  exact Statement.readAll?_flatten hall (Nat.le_refl _)

/-- The text says the statement: code written by hand is the text itself, and any other statement is what the text is
read as. -/
def Statement.IsSaidBy (piece : String) : Statement → Prop
  | .code raw => piece = raw
  | .returnText parts => ∀ textBlocks, returned? textBlocks piece = some parts
  | s => statements? piece = some [s]

/-- The text consists of pieces with line feeds between them, one for each statement, which say these statements. -/
def Spells (text : String) (statements : List Statement) : Prop :=
  ∃ pieces : List String, text = "\n".intercalate pieces ∧ List.Forall₂ Statement.IsSaidBy pieces statements

/-- Neither code written by hand nor texts are read from lexemes. -/
theorem Statement.isSaidBy_iff_of_read? {s : Statement} {lexemes rest : List String} (h : read? lexemes = some (s, rest))
    (piece : String) : s.IsSaidBy piece ↔ statements? piece = some [s] := by
  cases s with
  | code raw =>
    exfalso
    unfold read? at h
    split at h <;> simp [Option.bind_eq_some_iff] at h
  | returnText parts =>
    exfalso
    unfold read? at h
    split at h <;> simp [Option.bind_eq_some_iff] at h
  | _ => exact Iff.rfl

/-- A statement that is read is said by its text. -/
theorem Statement.IsRead.isSaidBy {s : Statement} {lexemes : List String} (h : s.IsRead lexemes) :
    s.IsSaidBy s.text := by
  have hbody : statements? (bodyText [s]) = some [s] :=
    statements?_bodyText (List.forall_mem_singleton.mpr ⟨lexemes, h⟩)
  rw [bodyText_eq, List.map_singleton, String.intercalate_singleton] at hbody
  exact (isSaidBy_iff_of_read? (h.read []) s.text).mpr hbody

theorem Statement.isSaidBy_code (raw : String) : (code raw).IsSaidBy (code raw).text :=
  String.intercalate_singleton

theorem spells_bodyText {statements : List Statement} (h : ∀ s ∈ statements, s.IsSaidBy s.text) :
    Spells (bodyText statements) statements := by
  refine ⟨statements.map Statement.text, bodyText_eq statements, ?_⟩
  rw [List.forall₂_map_left_iff, List.forall₂_same]
  exact h

end EntityForge.Java

/-! ## Generated bodies -/

namespace EntityForge.MethodInput

open Java

variable {className : String} {input : MethodInput}

/-- Where nothing is wrong with the names, they are identifiers. -/
theorem fault?_eq_none_iff : input.fault? className = none
    ↔ isIdentifier className = true ∧ ∀ m ∈ input.members, isIdentifier m.name = true := by
  cases hclass : isIdentifier className <;> simp [fault?, hclass]

/-- The code written by hand is said as it is. -/
theorem isSaidBy_of_mem_hooks {s : Statement} (h : s ∈ input.preStatements ++ input.postStatements) :
    s.IsSaidBy s.text := by
  have hcode : ∃ raw, s = .code raw := by
    simp only [preStatements, postStatements, List.mem_append, Option.mem_toList, Option.map_eq_some_iff] at h
    rcases h with ⟨raw, -, rfl⟩ | ⟨raw, -, rfl⟩ <;> exact ⟨raw, rfl⟩
  obtain ⟨raw, rfl⟩ := hcode
  exact Statement.isSaidBy_code raw

/-- All statements of `equals` are read, but for the code written by hand. -/
theorem exists_isRead_of_mem_equals (hfault : input.fault? className = none) {s : Statement}
    (hs : s ∈ input.equalsStatements className) :
    s ∈ input.preStatements ++ input.postStatements ∨ ∃ lexemes, s.IsRead lexemes := by
  obtain ⟨hclass, hmembers⟩ := fault?_eq_none_iff.mp hfault
  simp only [equalsStatements, List.mem_append, List.mem_cons, List.not_mem_nil, or_false, List.mem_map] at hs ⊢
  have hnull : Lexeme.ofText? Condition.isNull.text = some ["obj", "==", "null"] := by decide +kernel
  have hclassOf : Lexeme.ofText? Condition.otherClass.text
      = some ["getClass", "(", ")", "!=", "obj", ".", "getClass", "(", ")"] := by
    decide +kernel
  rcases hs with ((((rfl | rfl | rfl) | hpre) | ⟨m, hm, rfl⟩) | hpost) | rfl
  · exact .inr ⟨_, Statement.isRead_refuseIf hnull fun _ => rfl⟩
  · exact .inr ⟨_, Statement.isRead_refuseIf hclassOf fun _ => rfl⟩
  · exact .inr ⟨_, Statement.isRead_castOther hclass⟩
  · exact .inl (.inl hpre)
  · obtain ⟨lexemes, hcondition⟩ := m.shape.exists_isCondition_differs (hmembers m hm)
    exact .inr ⟨_, Statement.isRead_refuseIf hcondition.cut hcondition.read?_holds⟩
  · exact .inl (.inr hpost)
  · exact .inr ⟨_, Statement.isRead_returnTrue⟩

/-- All statements of `hashCode` are read, but for the code written by hand. -/
theorem exists_isRead_of_mem_hashCode (hfault : input.fault? className = none) {primes : PrimePair} {s : Statement}
    (hs : s ∈ input.hashCodeStatements primes) :
    s ∈ input.preStatements ++ input.postStatements ∨ ∃ lexemes, s.IsRead lexemes := by
  obtain ⟨-, hmembers⟩ := fault?_eq_none_iff.mp hfault
  simp only [hashCodeStatements, List.mem_append, List.mem_singleton, List.mem_map] at hs ⊢
  rcases hs with (((rfl | hpre) | ⟨m, hm, rfl⟩) | hpost) | rfl
  · exact .inr ⟨_, Statement.isRead_startHash primes.seed⟩
  · exact .inl (.inl hpre)
  · obtain ⟨lexemes, hterm⟩ := m.shape.exists_isOperand_hashTerm (hmembers m hm)
    exact .inr ⟨_, Statement.isRead_mixHash primes.multiplier hterm⟩
  · exact .inl (.inr hpost)
  · exact .inr ⟨_, Statement.isRead_returnHash⟩

/-- Statements that are read or written by hand are spelled by their text. -/
theorem spells_of_isRead {statements : List Statement}
    (h : ∀ s ∈ statements, s ∈ input.preStatements ++ input.postStatements ∨ ∃ lexemes, s.IsRead lexemes) :
    Spells (bodyText statements) statements := by
  refine spells_bodyText fun s hs => ?_
  rcases h s hs with hcode | ⟨_, hread⟩
  · exact isSaidBy_of_mem_hooks hcode
  · exact hread.isSaidBy

/-- Without code written by hand, the text of such statements is read as these. -/
theorem statements?_of_isRead {statements : List Statement} (hpre : input.pre = none) (hpost : input.post = none)
    (h : ∀ s ∈ statements, s ∈ input.preStatements ++ input.postStatements ∨ ∃ lexemes, s.IsRead lexemes) :
    statements? (bodyText statements) = some statements := by
  refine statements?_bodyText fun s hs => (h s hs).resolve_left ?_
  simp [preStatements, postStatements, hpre, hpost]

/-- The text of `equals` spells its statements. -/
theorem spells_equals (hfault : input.fault? className = none) :
    Spells (bodyText (input.equalsStatements className)) (input.equalsStatements className) :=
  spells_of_isRead fun _ hs => exists_isRead_of_mem_equals hfault hs

/-- The text of `hashCode` spells its statements. -/
theorem spells_hashCode (hfault : input.fault? className = none) (primes : PrimePair) :
    Spells (bodyText (input.hashCodeStatements primes)) (input.hashCodeStatements primes) :=
  spells_of_isRead fun _ hs => exists_isRead_of_mem_hashCode hfault hs

/-- The text of `toString` spells its statements. -/
theorem spells_toString (hfault : input.fault? className = none) :
    Spells (bodyText (input.toStringStatements className)) (input.toStringStatements className) := by
  obtain ⟨-, hmembers⟩ := fault?_eq_none_iff.mp hfault
  have hnames : ∀ name ∈ input.members.map (·.name), isIdentifier name = true := by
    simpa using hmembers
  refine spells_bodyText fun s hs => ?_
  rw [toStringStatements, List.mem_append, List.mem_singleton] at hs
  rcases hs with hcode | rfl
  · exact isSaidBy_of_mem_hooks hcode
  · intro textBlocks
    exact returned?_returnLine (textParts_ne_nil _ _) (wellFormed_textParts hnames _)

/-- Without code written by hand, the text of `equals` is read as its statements. -/
theorem statements?_equals (hfault : input.fault? className = none) (hpre : input.pre = none)
    (hpost : input.post = none) :
    statements? (bodyText (input.equalsStatements className)) = some (input.equalsStatements className) :=
  statements?_of_isRead hpre hpost fun _ hs => exists_isRead_of_mem_equals hfault hs

/-- Without code written by hand, the text of `hashCode` is read as its statements. -/
theorem statements?_hashCode (hfault : input.fault? className = none) (primes : PrimePair) (hpre : input.pre = none)
    (hpost : input.post = none) :
    statements? (bodyText (input.hashCodeStatements primes)) = some (input.hashCodeStatements primes) :=
  statements?_of_isRead hpre hpost fun _ hs => exists_isRead_of_mem_hashCode hfault hs

end EntityForge.MethodInput
