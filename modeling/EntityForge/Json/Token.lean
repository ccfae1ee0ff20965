import EntityForge.Json.Value

/-!
# Tokens of the interchange format

`scan` cuts a text into tokens, skipping blanks between them; `text` writes one token. A text token holds
`none` when its escapes spell no text.
-/

namespace EntityForge.Json

/-- A lexical unit of the interchange format. -/
inductive Token where
  | openBrace
  | closeBrace
  | openBracket
  | closeBracket
  | colon
  | comma
  | null
  | bool (value : Bool)
  | number (value : Number)
  | text (value : Option String)
  deriving DecidableEq

namespace Token

/-- The characters that may stand between tokens. -/
def isGap (c : Char) : Bool :=
  c == ' ' || c == '\n' || c == '\t' || c == '\r'

/-! ## Texts -/

/-- The value of a hexadecimal digit. -/
def hexDigit? (c : Char) : Option Nat :=
  if '0' ≤ c ∧ c ≤ '9' then some (c.toNat - '0'.toNat)
  else if 'a' ≤ c ∧ c ≤ 'f' then some (c.toNat - 'a'.toNat + 10)
  else if 'A' ≤ c ∧ c ≤ 'F' then some (c.toNat - 'A'.toNat + 10)
  else none

/-- The code unit named by the four hexadecimal digits of an escape. -/
def codeUnit? (a b c d : Char) : Option Nat := do
  let a ← hexDigit? a
  let b ← hexDigit? b
  let c ← hexDigit? c
  let d ← hexDigit? d
  pure (((a * 16 + b) * 16 + c) * 16 + d)

/-- The character that a backslash and one letter stand for. -/
def escaped? : Char → Option Char
  | '"' => some '"'
  | '\\' => some '\\'
  | '/' => some '/'
  | 'b' => some '\x08'
  | 'f' => some '\x0c'
  | 'n' => some '\n'
  | 'r' => some '\r'
  | 't' => some '\t'
  | _ => none

/-- Reads the rest of a text up to its closing quote, as code points and code units, and what follows. -/
def scanUnits : List Char → Option (List Nat × List Char)
  | [] => none
  | '"' :: rest => some ([], rest)
  | '\\' :: 'u' :: a :: b :: c :: d :: rest => do
    let unit ← codeUnit? a b c d
    let (units, rest) ← scanUnits rest
    pure (unit :: units, rest)
  | '\\' :: c :: rest => do
    let value ← escaped? c
    let (units, rest) ← scanUnits rest
    pure (value.toNat :: units, rest)
  | c :: rest =>
    if c.toNat < 0x20 then none
    else do
      let (units, rest) ← scanUnits rest
      pure (c.toNat :: units, rest)

/-- Code units that open a surrogate pair. -/
def isHighHalf (n : Nat) : Bool :=
  0xD800 ≤ n && n ≤ 0xDBFF

/-- Code units that close a surrogate pair. -/
def isLowHalf (n : Nat) : Bool :=
  0xDC00 ≤ n && n ≤ 0xDFFF

/-- The characters spelled by code points and code units, unless half of a surrogate pair stands alone. -/
def spell? : List Nat → Option (List Char)
  | [] => some []
  | [n] => if isHighHalf n || isLowHalf n then none else some [Char.ofNat n]
  | n :: m :: rest =>
    if isHighHalf n && isLowHalf m then
      (spell? rest).map (Char.ofNat (0x10000 + (n - 0xD800) * 0x400 + (m - 0xDC00)) :: ·)
    else if isHighHalf n || isLowHalf n then none
    else (spell? (m :: rest)).map (Char.ofNat n :: ·)

/-! ## Numbers -/

/-- Reads the digits after the point, if there is a point. -/
def scanFraction : List Char → Option (List Char × List Char)
  | '.' :: rest =>
    let digits := rest.takeWhile Char.isDigit
    if digits = [] then none else some (digits, rest.dropWhile Char.isDigit)
  | rest => some ([], rest)

/-- Reads the sign of an exponent, which may be left out. -/
def scanSign : List Char → Bool × List Char
  | '-' :: rest => (true, rest)
  | '+' :: rest => (false, rest)
  | rest => (false, rest)

/-- Reads the exponent, if there is one. -/
def scanExponent : List Char → Option (Option Int × List Char)
  | [] => some (none, [])
  | c :: rest =>
    if c = 'e' ∨ c = 'E' then
      let (negative, rest) := scanSign rest
      let digits := rest.takeWhile Char.isDigit
      let n : Int := Nat.ofDigitChars 10 digits 0
      if digits = [] then none
      else some (some (if negative then -n else n), rest.dropWhile Char.isDigit)
    else some (none, c :: rest)

/-- Reads a number without its sign: no superfluous zero in front, digits on both sides of a point. -/
def scanUnsigned (negative : Bool) (cs : List Char) : Option (Number × List Char) :=
  let digits := cs.takeWhile Char.isDigit
  if digits = [] ∨ (digits.head? = some '0' ∧ digits.length ≠ 1) then none
  else do
    let (fraction, rest) ← scanFraction (cs.dropWhile Char.isDigit)
    let (exponent, rest) ← scanExponent rest
    pure ({ negative, whole := Nat.ofDigitChars 10 digits 0, fraction, exponent }, rest)

/-! ## One token -/

/-- Reads the token that begins with `c`, and what follows it. -/
def scanOne (c : Char) (rest : List Char) : Option (Token × List Char) :=
  match c, rest with
  | '{', rest => some (.openBrace, rest)
  | '}', rest => some (.closeBrace, rest)
  | '[', rest => some (.openBracket, rest)
  | ']', rest => some (.closeBracket, rest)
  | ':', rest => some (.colon, rest)
  | ',', rest => some (.comma, rest)
  | '"', rest => (scanUnits rest).map fun (units, rest) => (.text ((spell? units).map String.ofList), rest)
  | 'n', 'u' :: 'l' :: 'l' :: rest => some (.null, rest)
  | 't', 'r' :: 'u' :: 'e' :: rest => some (.bool true, rest)
  | 'f', 'a' :: 'l' :: 's' :: 'e' :: rest => some (.bool false, rest)
  | '-', rest => (scanUnsigned true rest).map fun (n, rest) => (.number n, rest)
  | c, rest => (scanUnsigned false (c :: rest)).map fun (n, rest) => (.number n, rest)

/-! ## Every reader shortens its input -/

theorem length_scanUnits {cs rest : List Char} {units : List Nat} (h : scanUnits cs = some (units, rest)) :
    rest.length < cs.length := by
  fun_induction scanUnits cs generalizing units with
  | case1 => simp at h
  | case2 r =>
    simp only [Option.some.injEq, Prod.mk.injEq] at h
    simp [h.2]
  | case3 a b c d r ih =>
    simp only [Option.bind_eq_bind, Option.bind_eq_some_iff, Option.pure_def, Option.some.injEq,
      Prod.mk.injEq] at h
    obtain ⟨_, _, ⟨us, after⟩, hr, _, rfl⟩ := h
    have hlen : after.length < r.length := ih hr
    simp only [List.length_cons]
    omega
  | case4 c r _ ih =>
    simp only [Option.bind_eq_bind, Option.bind_eq_some_iff, Option.pure_def, Option.some.injEq,
      Prod.mk.injEq] at h
    obtain ⟨_, _, ⟨us, after⟩, hr, _, rfl⟩ := h
    have hlen : after.length < r.length := ih hr
    simp only [List.length_cons]
    omega
  | case5 => simp at h
  | case6 c r _ _ _ _ ih =>
    simp only [Option.bind_eq_bind, Option.bind_eq_some_iff, Option.pure_def, Option.some.injEq,
      Prod.mk.injEq] at h
    obtain ⟨⟨us, after⟩, hr, _, rfl⟩ := h
    have hlen : after.length < r.length := ih hr
    simp only [List.length_cons]
    omega

theorem length_scanFraction {cs digits rest : List Char} (h : scanFraction cs = some (digits, rest)) :
    rest.length ≤ cs.length := by
  unfold scanFraction at h
  split at h
  · next r =>
    simp only at h
    split at h
    · simp at h
    · simp only [Option.some.injEq, Prod.mk.injEq] at h
      have := (List.dropWhile_sublist Char.isDigit (l := r)).length_le
      simp only [← h.2, List.length_cons]
      omega
  · simp only [Option.some.injEq, Prod.mk.injEq] at h
    simp [h.2]

theorem length_scanSign (cs : List Char) : (scanSign cs).2.length ≤ cs.length := by
  unfold scanSign
  split <;> simp

theorem length_scanExponent {cs rest : List Char} {exponent : Option Int}
    (h : scanExponent cs = some (exponent, rest)) : rest.length ≤ cs.length := by
  unfold scanExponent at h
  split at h
  · simp only [Option.some.injEq, Prod.mk.injEq] at h
    simp [← h.2]
  · next c r =>
    split at h
    · simp only at h
      split at h
      · simp at h
      · simp only [Option.some.injEq, Prod.mk.injEq] at h
        have h1 := (List.dropWhile_sublist Char.isDigit (l := (scanSign r).2)).length_le
        have h2 := length_scanSign r
        simp only [← h.2, List.length_cons]
        omega
    · simp only [Option.some.injEq, Prod.mk.injEq] at h
      simp [← h.2]

theorem length_scanUnsigned {negative : Bool} {cs rest : List Char} {n : Number}
    (h : scanUnsigned negative cs = some (n, rest)) : rest.length < cs.length := by
  unfold scanUnsigned at h
  simp only at h
  split at h
  · simp at h
  · next hd =>
    simp only [Option.bind_eq_bind, Option.bind_eq_some_iff, Option.pure_def, Option.some.injEq,
      Prod.mk.injEq] at h
    obtain ⟨⟨fraction, r1⟩, hf, ⟨exponent, r2⟩, he, _, rfl⟩ := h
    have h1 := length_scanFraction hf
    have h2 : r2.length ≤ r1.length := length_scanExponent he
    have hne : cs.takeWhile Char.isDigit ≠ [] := fun hnil => hd (Or.inl hnil)
    have hpos : 0 < (cs.takeWhile Char.isDigit).length := List.length_pos_iff.mpr hne
    have hsum : (cs.takeWhile Char.isDigit).length + (cs.dropWhile Char.isDigit).length = cs.length := by
      rw [← List.length_append, List.takeWhile_append_dropWhile]
    have h3 : r2.length < cs.length := by omega
    exact h3

theorem length_scanOne {c : Char} {cs rest : List Char} {t : Token} (h : scanOne c cs = some (t, rest)) :
    rest.length ≤ cs.length := by
  unfold scanOne at h
  split at h
  case h_7 =>
    simp only [Option.map_eq_some_iff, Prod.mk.injEq] at h
    obtain ⟨⟨us, after⟩, hs, _, rfl⟩ := h
    exact Nat.le_of_lt (length_scanUnits hs)
  case h_11 =>
    simp only [Option.map_eq_some_iff, Prod.mk.injEq] at h
    obtain ⟨⟨n, after⟩, hs, _, rfl⟩ := h
    exact Nat.le_of_lt (length_scanUnsigned hs)
  case h_12 =>
    simp only [Option.map_eq_some_iff, Prod.mk.injEq] at h
    obtain ⟨⟨n, after⟩, hs, _, rfl⟩ := h
    exact Nat.le_of_lt_succ (length_scanUnsigned hs)
  all_goals
    simp only [Option.some.injEq, Prod.mk.injEq] at h
    simp only [← h.2, List.length_cons]
    omega

/-! ## Scanning -/

/-- The tokens of a text, in order. -/
def scanChars (cs : List Char) : Option (List Token) :=
  match cs with
  | [] => some []
  | c :: rest =>
    if isGap c then scanChars rest
    else
      match _h : scanOne c rest with
      | none => none
      | some (t, after) => (scanChars after).map (t :: ·)
termination_by cs.length
decreasing_by
  · simp
  · exact Nat.lt_succ_of_le (length_scanOne ‹_›)

/-- The tokens of a text, in order. -/
def scan (s : String) : Option (List Token) :=
  scanChars s.toList

/-! ## Writing -/

/-- The hexadecimal digit of a value below sixteen. -/
def hexDigit (n : Nat) : Char :=
  if n < 10 then Char.ofNat ('0'.toNat + n) else Char.ofNat ('a'.toNat + (n - 10))

/-- A character as it is written within a text. -/
def escapeChar (c : Char) : List Char :=
  if c = '"' then ['\\', '"']
  else if c = '\\' then ['\\', '\\']
  else if c.toNat < 0x20 then ['\\', 'u', '0', '0', hexDigit (c.toNat / 16), hexDigit (c.toNat % 16)]
  else [c]

/-- A number as it is written. -/
def writeNumber (n : Number) : List Char :=
  (if n.negative then ['-'] else []) ++ Nat.toDigits 10 n.whole
    ++ (if n.fraction = [] then [] else '.' :: n.fraction)
    ++ match n.exponent with
      | none => []
      | some e => 'e' :: (if e < 0 then ['-'] else []) ++ Nat.toDigits 10 e.natAbs

/-- A token as it is written. A text that cannot be spelled is written as half of a surrogate pair. -/
def write : Token → List Char
  | .openBrace => ['{']
  | .closeBrace => ['}']
  | .openBracket => ['[']
  | .closeBracket => [']']
  | .colon => [':']
  | .comma => [',']
  | .null => ['n', 'u', 'l', 'l']
  | .bool true => ['t', 'r', 'u', 'e']
  | .bool false => ['f', 'a', 'l', 's', 'e']
  | .number n => writeNumber n
  | .text (some s) => '"' :: s.toList.flatMap escapeChar ++ ['"']
  | .text none => ['"', '\\', 'u', 'd', '8', '0', '0', '"']

end Token

end EntityForge.Json
