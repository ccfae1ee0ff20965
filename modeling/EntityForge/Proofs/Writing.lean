import EntityForge.Json.Reader
import EntityForge.Json.Writer

/-!
# Texts that write a value

A value of the interchange format can be written in many ways: with blanks between its tokens, and with any character of
a text by an escape instead of as it is. `Json.WrittenBy` says that a text writes a value in one of these ways.

Main statement: `ofText?_of_writtenBy`, that a value is read from each text that writes it.
-/

namespace EntityForge.Json

namespace Token

/-! ## Characters of a text -/

/-- The ways to write a character of a text: as it is, by a backslash and a letter, by its code unit, or by the two
halves of its surrogate pair. -/
inductive CharText (c : Char) : List Char → Prop
  | plain (hquote : c ≠ '"') (hslash : c ≠ '\\') (hcontrol : ¬ c.toNat < 0x20) : CharText c [c]
  | letter {l : Char} (h : escaped? l = some c) : CharText c ['\\', l]
  | unit {x₁ x₂ x₃ x₄ : Char} (h : codeUnit? x₁ x₂ x₃ x₄ = some c.toNat) :
      CharText c ['\\', 'u', x₁, x₂, x₃, x₄]
  | pair (high low : Nat) {x₁ x₂ x₃ x₄ y₁ y₂ y₃ y₄ : Char}
      (hx : codeUnit? x₁ x₂ x₃ x₄ = some high) (hy : codeUnit? y₁ y₂ y₃ y₄ = some low)
      (hhigh : isHighHalf high) (hlow : isLowHalf low)
      (hc : c = Char.ofNat (0x10000 + (high - 0xD800) * 0x400 + (low - 0xDC00))) :
      CharText c ['\\', 'u', x₁, x₂, x₃, x₄, '\\', 'u', y₁, y₂, y₃, y₄]

/-- The characters between the quotes of a text, each written in one of its ways. -/
inductive BodyText : List Char → List Char → Prop
  | nil : BodyText [] []
  | cons {c : Char} {s cs rest : List Char} (head : CharText c cs) (tail : BodyText s rest) :
      BodyText (c :: s) (cs ++ rest)

/-- A character is no half of a surrogate pair. -/
theorem not_half_toNat (c : Char) : isHighHalf c.toNat = false ∧ isLowHalf c.toNat = false := by
  have hvalid : c.toNat < 0xD800 ∨ 0xDFFF < c.toNat ∧ c.toNat < 0x110000 := c.valid
  unfold isHighHalf isLowHalf
  simp only [Bool.and_eq_false_iff, decide_eq_false_iff_not]
  omega

/-- The code point of a character spells that character. -/
theorem spell?_toNat_cons (c : Char) (units : List Nat) :
    spell? (c.toNat :: units) = (spell? units).map (c :: ·) := by
  obtain ⟨hhigh, hlow⟩ := not_half_toNat c
  cases units with
  | nil => simp [spell?, hhigh, hlow]
  | cons m rest => simp [spell?, hhigh, hlow]

/-- The halves of a surrogate pair spell one character. -/
theorem spell?_pair_cons {high low : Nat} (hhigh : isHighHalf high) (hlow : isLowHalf low)
    (units : List Nat) :
    spell? (high :: low :: units)
      = (spell? units).map (Char.ofNat (0x10000 + (high - 0xD800) * 0x400 + (low - 0xDC00)) :: ·) := by
  rw [spell?, if_pos]
  rw [hhigh, hlow]
  rfl

theorem scanUnits_plain {c : Char} (hquote : c ≠ '"') (hslash : c ≠ '\\')
    (hcontrol : ¬ c.toNat < 0x20) {after rest : List Char} {units : List Nat}
    (h : scanUnits after = some (units, rest)) :
    scanUnits (c :: after) = some (c.toNat :: units, rest) := by
  rw [scanUnits.eq_5 c after hquote (fun _ _ _ _ _ hc => absurd hc hslash)
    (fun _ _ hc => absurd hc hslash), if_neg hcontrol, h]
  rfl

theorem scanUnits_letter {l c : Char} (hl : escaped? l = some c) {after rest : List Char}
    {units : List Nat} (h : scanUnits after = some (units, rest)) :
    scanUnits ('\\' :: l :: after) = some (c.toNat :: units, rest) := by
  have hu : l ≠ 'u' := by
    rintro rfl
    exact absurd hl (by simp [escaped?])
  rw [scanUnits.eq_4 l after (fun _ _ _ _ _ hc => absurd hc hu), hl, h]
  rfl

theorem scanUnits_unit {x₁ x₂ x₃ x₄ : Char} {n : Nat} (hn : codeUnit? x₁ x₂ x₃ x₄ = some n)
    {after rest : List Char} {units : List Nat} (h : scanUnits after = some (units, rest)) :
    scanUnits ('\\' :: 'u' :: x₁ :: x₂ :: x₃ :: x₄ :: after) = some (n :: units, rest) := by
  rw [scanUnits, hn, h]
  rfl

/-- However a character is written, it is scanned as code units that spell it. -/
theorem CharText.scanned {c : Char} {cs : List Char} (h : CharText c cs) :
    ∃ front : List Nat,
      (∀ (after rest : List Char) (units : List Nat), scanUnits after = some (units, rest) →
        scanUnits (cs ++ after) = some (front ++ units, rest))
      ∧ ∀ units : List Nat, spell? (front ++ units) = (spell? units).map (c :: ·) := by
  cases h with
  | plain hquote hslash hcontrol =>
    exact ⟨[c.toNat], fun _ _ _ hafter => scanUnits_plain hquote hslash hcontrol hafter,
      spell?_toNat_cons c⟩
  | letter hl =>
    exact ⟨[c.toNat], fun _ _ _ hafter => scanUnits_letter hl hafter, spell?_toNat_cons c⟩
  | unit hn =>
    exact ⟨[c.toNat], fun _ _ _ hafter => scanUnits_unit hn hafter, spell?_toNat_cons c⟩
  | pair high low hx hy hhigh hlow hc =>
    refine ⟨[high, low], fun _ _ _ hafter => scanUnits_unit hx (scanUnits_unit hy hafter),
      fun units => ?_⟩
    rw [hc]
    exact spell?_pair_cons hhigh hlow units

/-- The characters of a text are scanned up to the closing quote. -/
theorem BodyText.scanned {s body : List Char} (h : BodyText s body) (after : List Char) :
    ∃ units : List Nat, scanUnits (body ++ '"' :: after) = some (units, after)
      ∧ spell? units = some s := by
  induction h with
  | nil => exact ⟨[], rfl, rfl⟩
  | cons head tail ih =>
    obtain ⟨units, hscan, hspell⟩ := ih
    obtain ⟨front, hfront, hspellFront⟩ := head.scanned
    refine ⟨front ++ units, ?_, ?_⟩
    · rw [List.append_assoc]
      exact hfront _ _ _ hscan
    · rw [hspellFront, hspell]
      rfl

/-! ## Integers -/

/-- Whether a number that ends before these characters ends there: none of its characters follows. -/
def Stops (after : List Char) : Prop :=
  ∀ c ∈ after.head?, c.isDigit = false ∧ c ≠ '.' ∧ c ≠ 'e' ∧ c ≠ 'E'

/-- Only zero is written with a zero in front. -/
theorem toDigits_head_ne_zero {n : Nat} (hn : n ≠ 0) : (Nat.toDigits 10 n).head? ≠ some '0' := by
  induction n using Nat.strongRecOn with
  | ind n ih =>
    rw [Nat.toDigits_eq_if (by decide)]
    split
    · next hlt =>
      intro h
      have hdigit : ∀ m < 10, m ≠ 0 → Nat.digitChar m ≠ '0' := by decide
      exact hdigit n hlt hn (by simpa using h)
    · next hge =>
      intro h
      have hzero := ih (n / 10) (by omega) (by omega)
      cases hfront : Nat.toDigits 10 (n / 10) with
      | nil => exact Nat.toDigits_ne_nil hfront
      | cons d rest =>
        rw [hfront] at h hzero
        exact hzero h

theorem toDigits_takeWhile (n : Nat) {after : List Char} (hstops : Stops after) :
    (Nat.toDigits 10 n ++ after).takeWhile Char.isDigit = Nat.toDigits 10 n
      ∧ (Nat.toDigits 10 n ++ after).dropWhile Char.isDigit = after := by
  have hdigits : ∀ c ∈ Nat.toDigits 10 n, c.isDigit = true := fun c hc =>
    Nat.isDigit_of_mem_toDigits (by decide) (by decide) hc
  rw [List.takeWhile_append_of_pos hdigits, List.dropWhile_append_of_pos hdigits]
  cases after with
  | nil => simp
  | cons c rest =>
    have hc : c.isDigit = false := (hstops c rfl).1
    simp [hc]

theorem scanFraction_of_stops {after : List Char} (hstops : Stops after) :
    scanFraction after = some ([], after) := by
  cases after with
  | nil => rfl
  | cons c rest =>
    have hc : c ≠ '.' := (hstops c rfl).2.1
    rw [scanFraction]
    rintro _ h
    exact hc (List.cons.inj h).1

theorem scanExponent_of_stops {after : List Char} (hstops : Stops after) :
    scanExponent after = some (none, after) := by
  cases after with
  | nil => rfl
  | cons c rest =>
    obtain ⟨-, -, he, hE⟩ := hstops c rfl
    rw [scanExponent, if_neg (by simp [he, hE])]

/-- Digits are scanned as the number they write. -/
theorem scanUnsigned_toDigits (negative : Bool) (n : Nat) {after : List Char} (hstops : Stops after) :
    scanUnsigned negative (Nat.toDigits 10 n ++ after)
      = some ({ negative, whole := n, fraction := [], exponent := none }, after) := by
  obtain ⟨htake, hdrop⟩ := toDigits_takeWhile n hstops
  have hhead : ¬ (Nat.toDigits 10 n = [] ∨
      ((Nat.toDigits 10 n).head? = some '0' ∧ (Nat.toDigits 10 n).length ≠ 1)) := by
    rintro (hnil | ⟨hzero, hlength⟩)
    · exact Nat.toDigits_ne_nil hnil
    · by_cases hn : n = 0
      · subst hn
        exact hlength rfl
      · exact toDigits_head_ne_zero hn hzero
  unfold scanUnsigned
  simp only [htake, hdrop, if_neg hhead, scanFraction_of_stops hstops, scanExponent_of_stops hstops,
    Nat.ofDigitChars_ten_toDigits, Option.bind_eq_bind, Option.bind_some, Option.pure_def]

/-- Nothing but a number begins with a digit. -/
theorem scanOne_digit {c : Char} (hc : c.isDigit = true) (rest : List Char) :
    scanOne c rest = (scanUnsigned false (c :: rest)).map fun r => (.number r.1, r.2) := by
  have hne : ∀ d : Char, d.isDigit = false → c ≠ d := by
    rintro d hd rfl
    rw [hd] at hc
    exact absurd hc (by decide)
  exact scanOne.eq_12 c rest (hne _ (by decide)) (hne _ (by decide)) (hne _ (by decide))
    (hne _ (by decide)) (hne _ (by decide)) (hne _ (by decide)) (hne _ (by decide))
    (hne _ (by decide)) (fun _ h => absurd h (hne _ (by decide)))
    (fun _ h => absurd h (hne _ (by decide))) (fun _ h => absurd h (hne _ (by decide)))

/-- An integer is scanned as the number it writes. -/
theorem scanOne_integer (n : Int) {after : List Char} (hstops : Stops after) :
    ∃ c rest, writeNumber (.ofInt n) = c :: rest ∧ isGap c = false
      ∧ scanOne c (rest ++ after) = some (.number (.ofInt n), after) := by
  have hwrite : writeNumber (.ofInt n)
      = (if n < 0 then ['-'] else []) ++ Nat.toDigits 10 n.natAbs := by
    simp [writeNumber, Number.ofInt]
  rw [hwrite]
  by_cases hn : n < 0
  · refine ⟨'-', Nat.toDigits 10 n.natAbs, by rw [if_pos hn]; rfl, rfl, ?_⟩
    rw [scanOne, scanUnsigned_toDigits true n.natAbs hstops]
    simp [Number.ofInt, hn]
  · rw [if_neg hn, List.nil_append]
    cases hdigits : Nat.toDigits 10 n.natAbs with
    | nil => exact absurd hdigits Nat.toDigits_ne_nil
    | cons c rest =>
      have hc : c.isDigit = true :=
        Nat.isDigit_of_mem_toDigits (b := 10) (n := n.natAbs) (by decide) (by decide)
          (hdigits ▸ List.mem_cons_self)
      have hgap : isGap c = false := by
        rw [Bool.eq_false_iff]
        intro hgap
        simp only [isGap, Bool.or_eq_true, beq_iff_eq] at hgap
        rcases hgap with ((rfl | rfl) | rfl) | rfl <;> exact absurd hc (by decide)
      refine ⟨c, rest, rfl, hgap, ?_⟩
      rw [scanOne_digit hc, ← List.cons_append, ← hdigits, scanUnsigned_toDigits false n.natAbs hstops]
      simp [Number.ofInt, hn]

/-! ## Tokens -/

/-- The tokens that can be written in one way only. -/
def isFixed : Token → Bool
  | .number _ | .text _ => false
  | _ => true

/-- The ways to write a token. -/
inductive TokenText : Token → List Char → Prop
  | fixed {t : Token} (h : t.isFixed) : TokenText t t.write
  | integer (n : Int) : TokenText (.number (.ofInt n)) (writeNumber (.ofInt n))
  | text {s : String} {body : List Char} (h : BodyText s.toList body) :
      TokenText (.text (some s)) ('"' :: body ++ ['"'])

/-- The ways to write tokens, with blanks before, between and after them. -/
inductive TokensText : List Token → List Char → Prop
  | nil {gap : List Char} (hgap : ∀ c ∈ gap, isGap c) : TokensText [] gap
  | cons {t : Token} {ts : List Token} {gap cs after : List Char} (hgap : ∀ c ∈ gap, isGap c)
      (head : TokenText t cs) (tail : TokensText ts after) : TokensText (t :: ts) (gap ++ cs ++ after)

/-- Whether tokens begin with one that may follow a value. -/
def Closes (ts : List Token) : Prop :=
  ∀ t ∈ ts.head?, t = .comma ∨ t = .closeBracket ∨ t = .closeBrace

/-- Whether no number runs into the next token. -/
def NumbersEnd : List Token → Prop
  | [] => True
  | .number _ :: ts => Closes ts ∧ NumbersEnd ts
  | _ :: ts => NumbersEnd ts

/-- The first character that a token is written with is no blank, and from it the token is scanned. -/
theorem TokenText.scanned {t : Token} {cs : List Char} (h : TokenText t cs) {after : List Char}
    (hstops : (∃ n, t = .number n) → Stops after) :
    ∃ c rest, cs = c :: rest ∧ isGap c = false ∧ scanOne c (rest ++ after) = some (t, after) := by
  cases h with
  | fixed hfixed =>
    cases t with
    | bool b => cases b <;> exact ⟨_, _, rfl, rfl, rfl⟩
    | number n => exact absurd hfixed (by simp [isFixed])
    | text s => exact absurd hfixed (by simp [isFixed])
    | _ => exact ⟨_, _, rfl, rfl, rfl⟩
  | integer n => exact scanOne_integer n (hstops ⟨_, rfl⟩)
  | @text s body hbody =>
    obtain ⟨units, hscan, hspell⟩ := hbody.scanned after
    refine ⟨'"', body ++ ['"'], rfl, rfl, ?_⟩
    rw [List.append_assoc, List.singleton_append, scanOne, hscan]
    simp [hspell, String.ofList_toList]

/-- Blanks are skipped. -/
theorem scanChars_gap {gap : List Char} (hgap : ∀ c ∈ gap, isGap c) (cs : List Char) :
    scanChars (gap ++ cs) = scanChars cs := by
  induction gap with
  | nil => rfl
  | cons c gap ih =>
    rw [List.cons_append, scanChars, if_pos (hgap c List.mem_cons_self)]
    exact ih fun d hd => hgap d (List.mem_cons_of_mem _ hd)

/-- What may follow a value stops a number. -/
theorem TokensText.stops {ts : List Token} {cs : List Char} (h : TokensText ts cs)
    (hcloses : Closes ts) : Stops cs := by
  have hgapStops : ∀ c, isGap c → c.isDigit = false ∧ c ≠ '.' ∧ c ≠ 'e' ∧ c ≠ 'E' := by
    intro c hc
    simp only [isGap, Bool.or_eq_true, beq_iff_eq] at hc
    rcases hc with ((rfl | rfl) | rfl) | rfl <;> decide
  -- What comes first is a blank, or else the first character of a token that may follow a value.
  cases h with
  | nil hgap => exact fun c hc => hgapStops c (hgap c (List.mem_of_mem_head? hc))
  | @cons t _ gap _ _ hgap head _ =>
    cases gap with
    | cons c gap =>
      rintro _ ⟨⟩
      exact hgapStops c (hgap c List.mem_cons_self)
    | nil =>
      rcases hcloses t rfl with rfl | rfl | rfl <;> cases head <;> rintro _ ⟨⟩ <;> decide

/-- Tokens are scanned from each text that writes them. -/
theorem TokensText.scanned {ts : List Token} {cs : List Char} (h : TokensText ts cs)
    (hends : NumbersEnd ts) : scanChars cs = some ts := by
  induction h with
  | @nil gap hgap =>
    rw [← List.append_nil gap, scanChars_gap hgap, scanChars]
  | @cons t ts gap cs after hgap head tail ih =>
    -- Only a number could run on into the characters after it.
    have hrest : NumbersEnd ts := by
      cases t <;> first | exact hends | exact hends.2
    have hstops : (∃ n, t = .number n) → Stops after := by
      rintro ⟨n, rfl⟩
      exact tail.stops hends.1
    obtain ⟨c, rest, rfl, hc, hscan⟩ := head.scanned hstops
    rw [List.append_assoc, scanChars_gap hgap, List.cons_append, scanChars, if_neg (by simp [hc])]
    split
    · next hnone =>
      rw [hscan] at hnone
      exact absurd hnone (by simp)
    · next hsome =>
      rw [hscan, Option.some.injEq, Prod.mk.injEq] at hsome
      obtain ⟨rfl, rfl⟩ := hsome
      rw [ih hrest]
      rfl

end Token

/-! ## Values -/

open Token

mutual

/-- No number of a value runs into the token after it. -/
theorem numbersEnd_tokens (v : Json) {rest : List Token} (hcloses : Closes rest)
    (hrest : NumbersEnd rest) : NumbersEnd (v.tokens ++ rest) := by
  match v with
  | .null | .bool _ | .text _ | .illFormed => simpa [tokens, NumbersEnd] using hrest
  | .number _ => simpa [tokens, NumbersEnd] using ⟨hcloses, hrest⟩
  | .array [] | .object [] => simpa [tokens, NumbersEnd] using hrest
  | .array (item :: items) =>
    obtain ⟨hcloses, hends⟩ := numbersEnd_itemTokens items hrest
    simpa [tokens, NumbersEnd] using numbersEnd_tokens item hcloses hends
  | .object ((_, value) :: fields) =>
    obtain ⟨hcloses, hends⟩ := numbersEnd_fieldTokens fields hrest
    simpa [tokens, NumbersEnd] using numbersEnd_tokens value hcloses hends

/-- Nor does a number of further items. -/
theorem numbersEnd_itemTokens (items : List Json) {rest : List Token} (hrest : NumbersEnd rest) :
    Closes (itemTokens items ++ .closeBracket :: rest)
      ∧ NumbersEnd (itemTokens items ++ .closeBracket :: rest) := by
  match items with
  | [] => exact ⟨by simp [itemTokens, Closes], by simpa [itemTokens, NumbersEnd] using hrest⟩
  | item :: items =>
    obtain ⟨hcloses, hends⟩ := numbersEnd_itemTokens items hrest
    refine ⟨by simp [itemTokens, Closes], ?_⟩
    simpa [itemTokens, NumbersEnd] using numbersEnd_tokens item hcloses hends

/-- Nor does a number of further fields. -/
theorem numbersEnd_fieldTokens (fields : List (String × Json)) {rest : List Token}
    (hrest : NumbersEnd rest) :
    Closes (fieldTokens fields ++ .closeBrace :: rest)
      ∧ NumbersEnd (fieldTokens fields ++ .closeBrace :: rest) := by
  match fields with
  | [] => exact ⟨by simp [fieldTokens, Closes], by simpa [fieldTokens, NumbersEnd] using hrest⟩
  | (_, value) :: fields =>
    obtain ⟨hcloses, hends⟩ := numbersEnd_fieldTokens fields hrest
    refine ⟨by simp [fieldTokens, Closes], ?_⟩
    simpa [fieldTokens, NumbersEnd] using numbersEnd_tokens value hcloses hends

end

/-- One token is taken at a time. -/
theorem advanceAll?_cons {p q : Position} {t : Token} (h : advance? p t = some q) (ts : List Token) :
    advanceAll? p (t :: ts) = advanceAll? q ts := by
  rw [advanceAll?, List.foldlM_cons, h]
  rfl

/-- No value begins as the end of an array does. -/
theorem advanceAll?_itemOrEnd (v : Json) (stack : List Frame) (rest : List Token) :
    advanceAll? (.itemOrEnd stack) (v.tokens ++ rest)
      = advanceAll? (.value (.items [] :: stack)) (v.tokens ++ rest) := by
  match v with
  | .null | .bool _ | .text _ | .illFormed | .number _ => rfl
  | .array [] | .object [] => rfl
  | .array (_ :: _) => rfl
  | .object (_ :: _) => rfl

/-- The fields of an object whose names all spell texts. -/
theorem ofMembers_map (fields : List (String × Json)) :
    ofMembers (fields.map fun field => (some field.1, field.2)) = .object fields := by
  have hfields : (fields.map fun field => (some field.1, field.2)).mapM
      (fun member : Key × Json => member.1.map (·, member.2)) = some fields := by
    induction fields with
    | nil => rfl
    | cons field rest ih =>
      rw [List.map_cons, List.mapM_cons, ih]
      rfl
  rw [ofMembers, hfields]

-- The induction is on the value. Each statement is about any stack, since items and fields are read above the frame of
-- their array or object.
mutual

/-- The tokens of a value take the machine past that value. -/
theorem advanceAll?_tokens (v : Json) (stack : List Frame) (rest : List Token) :
    advanceAll? (.value stack) (v.tokens ++ rest) = advanceAll? (.after v stack) rest := by
  match v with
  | .null | .bool _ | .text _ | .illFormed | .number _ => exact advanceAll?_cons rfl rest
  | .array [] | .object [] => exact (advanceAll?_cons rfl _).trans (advanceAll?_cons rfl rest)
  | .array (item :: items) =>
    have htokens : (Json.array (item :: items)).tokens ++ rest
        = .openBracket :: (item.tokens ++ (itemTokens items ++ .closeBracket :: rest)) := by
      simp [tokens]
    rw [htokens, advanceAll?_cons rfl, advanceAll?_itemOrEnd, advanceAll?_tokens,
      advanceAll?_itemTokens]
    rfl
  | .object ((key, value) :: fields) =>
    have htokens : (Json.object ((key, value) :: fields)).tokens ++ rest
        = .openBrace :: .text (some key) :: .colon ::
          (value.tokens ++ (fieldTokens fields ++ .closeBrace :: rest)) := by
      simp [tokens]
    rw [htokens, advanceAll?_cons rfl, advanceAll?_cons rfl, advanceAll?_cons rfl,
      advanceAll?_tokens, advanceAll?_fieldTokens]
    exact congrArg (fun w => advanceAll? (.after w stack) rest) (ofMembers_map ((key, value) :: fields))

/-- The tokens of further items take it past the array. -/
theorem advanceAll?_itemTokens (items : List Json) (v : Json) (before : List Json)
    (stack : List Frame) (rest : List Token) :
    advanceAll? (.after v (.items before :: stack)) (itemTokens items ++ .closeBracket :: rest)
      = advanceAll? (.after (.array ((v :: before).reverse ++ items)) stack) rest := by
  match items with
  | [] =>
    rw [List.append_nil]
    exact advanceAll?_cons rfl rest
  | item :: items =>
    have htokens : itemTokens (item :: items) ++ .closeBracket :: rest
        = .comma :: (item.tokens ++ (itemTokens items ++ .closeBracket :: rest)) := by
      simp [itemTokens]
    rw [htokens, advanceAll?_cons rfl, advanceAll?_tokens, advanceAll?_itemTokens,
      List.reverse_cons, List.append_assoc, List.singleton_append]

/-- The tokens of further fields take it past the object. -/
theorem advanceAll?_fieldTokens (fields : List (String × Json)) (key : Key) (v : Json)
    (before : List (Key × Json)) (stack : List Frame) (rest : List Token) :
    advanceAll? (.after v (.members before key :: stack)) (fieldTokens fields ++ .closeBrace :: rest)
      = advanceAll? (.after (ofMembers (((key, v) :: before).reverse
          ++ fields.map fun field => (some field.1, field.2))) stack) rest := by
  match fields with
  | [] =>
    rw [List.map_nil, List.append_nil]
    exact advanceAll?_cons rfl rest
  | (name, value) :: fields =>
    have htokens : fieldTokens ((name, value) :: fields) ++ .closeBrace :: rest
        = .comma :: .text (some name) :: .colon ::
          (value.tokens ++ (fieldTokens fields ++ .closeBrace :: rest)) := by
      simp [fieldTokens]
    rw [htokens, advanceAll?_cons rfl, advanceAll?_cons rfl, advanceAll?_cons rfl,
      advanceAll?_tokens, advanceAll?_fieldTokens, List.reverse_cons, List.append_assoc,
      List.singleton_append, List.map_cons]

end

/-- A value is read from its tokens. -/
theorem ofTokens?_tokens (v : Json) : ofTokens? v.tokens = some v := by
  have h := advanceAll?_tokens v [] []
  rw [List.append_nil] at h
  rw [ofTokens?, h]
  rfl

/-! ## Reading back what is written -/

/-- A text writes a value: it writes the tokens of the value, with any blanks around them and with any way to write the
characters of texts. -/
def WrittenBy (v : Json) (s : String) : Prop :=
  TokensText v.tokens s.toList

/-- **Reading back.** A value is read from each text that writes it. -/
theorem ofText?_of_writtenBy {v : Json} {s : String} (h : v.WrittenBy s) : ofText? s = some v := by
  have hends : NumbersEnd v.tokens := by
    have h : NumbersEnd (v.tokens ++ []) := numbersEnd_tokens v (by simp [Closes]) trivial
    rwa [List.append_nil] at h
  rw [ofText?, scan, TokensText.scanned h hends]
  exact ofTokens?_tokens v

/-! ## The text that is written -/

namespace Token

/-- Whether a token is no number but an integer, and no text that cannot be spelled. -/
def isOrdinary : Token → Bool
  | .number n => n.toInt?.isSome
  | .text s => s.isSome
  | _ => true

/-- Any number that is written as an integer is the one written for it. -/
theorem eq_ofInt_of_toInt?_eq_some {n : Number} {i : Int} (h : n.toInt? = some i) : n = .ofInt i := by
  obtain ⟨negative, whole, fraction, exponent⟩ := n
  rw [Number.toInt?] at h
  split at h
  · next hfraction hexponent =>
    obtain rfl : fraction = [] := hfraction
    obtain rfl : exponent = none := hexponent
    cases negative with
    | false =>
      obtain rfl : (whole : Int) = i := Option.some.inj h
      simp [Number.ofInt]
    | true =>
      by_cases hzero : whole = 0
      · rw [hzero] at h
        exact absurd h (by simp)
      · have hi : some (-(whole : Int)) = some i := by simpa [hzero] using h
        obtain rfl := Option.some.inj hi
        simp [Number.ofInt]
        omega
  · exact absurd h (by simp)

theorem charText_escapeChar (c : Char) : CharText c (escapeChar c) := by
  have hcontrols : ∀ n < 0x20, codeUnit? '0' '0' (hexDigit (n / 16)) (hexDigit (n % 16)) = some n := by
    decide
  rw [escapeChar]
  split
  · next h =>
    subst h
    exact .letter rfl
  · next hquote =>
    split
    · next h =>
      subst h
      exact .letter rfl
    · next hslash =>
      split
      · next hcontrol => exact .unit (hcontrols _ hcontrol)
      · next hcontrol => exact .plain hquote hslash hcontrol

theorem bodyText_flatMap (s : List Char) : BodyText s (s.flatMap escapeChar) := by
  induction s with
  | nil => exact .nil
  | cons c s ih =>
    rw [List.flatMap_cons]
    exact .cons (charText_escapeChar c) ih

theorem tokenText_write {t : Token} (h : t.isOrdinary) : TokenText t t.write := by
  cases t with
  | number n =>
    obtain ⟨i, hi⟩ := Option.isSome_iff_exists.mp h
    obtain rfl := eq_ofInt_of_toInt?_eq_some hi
    exact .integer i
  | text s =>
    obtain ⟨s, rfl⟩ := Option.isSome_iff_exists.mp h
    exact .text (bodyText_flatMap s.toList)
  | _ => exact .fixed rfl

theorem tokensText_flatMap {ts : List Token} (h : ∀ t ∈ ts, t.isOrdinary) :
    TokensText ts (ts.flatMap write) := by
  induction ts with
  | nil => exact .nil (by simp)
  | cons t ts ih =>
    rw [List.flatMap_cons]
    exact .cons (by simp : ∀ c ∈ ([] : List Char), isGap c) (tokenText_write (h t List.mem_cons_self))
      (ih fun u hu => h u (List.mem_cons_of_mem _ hu))

end Token

/-- A value is written by the text that it is rendered as. -/
theorem writtenBy_render {v : Json} (h : ∀ t ∈ v.tokens, t.isOrdinary) : v.WrittenBy v.render := by
  rw [WrittenBy, render, String.toList_ofList]
  exact tokensText_flatMap h

end EntityForge.Json
