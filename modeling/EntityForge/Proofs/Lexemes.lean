import EntityForge.Proofs.AnnotationTokens

/-!
# Lexemes of methods

The text of a method cut into words, numerals, operators and separators, each as long as it can be. Comments, literals of
texts and Unicode escapes are not cut: slashes, quotes and backslashes are no lexemes.

Two texts that are put together are cut each on its own when the first one ends or the second one begins with a border,
which is a blank or a separator.

Main statement: `ofText?_append`.
-/

namespace EntityForge.Java.Lexeme

/-! ## Cutting -/

/-- The operators and separators of the language, but for those with a slash and the three dots. -/
def signs : List String :=
  ["(", ")", "\x7b", "\x7d", "[", "]", ";", ",", ".", "@", "::", "=", ">", "<", "!", "~", "?", ":", "->", "==", ">=",
    "<=", "!=", "&&", "||", "++", "--", "+", "-", "*", "&", "|", "^", "%", "<<", ">>", ">>>", "+=", "-=", "*=", "&=",
    "|=", "^=", "%=", "<<=", ">>=", ">>>="]

/-- Whether the characters are one lexeme: a word or a numeral, or one of the signs. -/
def isLexeme (cs : List Char) : Bool :=
  (!cs.isEmpty && cs.all isIdentifierPart) || signs.any (·.toList == cs)

/-- The lexeme that has these characters, if it has any. -/
def ended (begun : List Char) : List String :=
  if begun = [] then [] else [String.ofList begun]

/-- The lexemes of characters behind those of a lexeme that has begun. It goes on as long as it can. -/
def cut? (begun : List Char) : List Char → Option (List String)
  | [] => some (ended begun)
  | c :: rest =>
    if isLexeme (begun ++ [c]) then cut? (begun ++ [c]) rest
    else if Token.isGap c then (cut? [] rest).map (ended begun ++ ·)
    else if isLexeme [c] then (cut? [c] rest).map (ended begun ++ ·)
    else none

/-- The lexemes of a text. -/
def ofText? (text : String) : Option (List String) :=
  cut? [] text.toList

/-! ## Borders -/

/-- Blanks, and the separators that no other character belongs to a lexeme with. -/
def isBorder (c : Char) : Bool :=
  Token.isGap c || ['(', ')', '\x7b', '\x7d', ';', ',', '.', '?'].contains c

variable {begun cs after : List Char} {c d : Char} {xs ys : List String}

/-- No blank stands in a lexeme, and a separator only alone. -/
theorem eq_singleton_of_isLexeme (hd : isBorder d = true) (hmem : d ∈ cs) (h : isLexeme cs = true) :
    cs = [d] ∧ Token.isGap d = false := by
  have hborders : ([' ', '\t', '\n', '\r', '\x0c', '(', ')', '\x7b', '\x7d', ';', ',', '.', '?'].all fun e =>
      !isIdentifierPart e && signs.all fun sign =>
        !sign.toList.contains e || (sign.toList == [e] && !Token.isGap e)) = true := by
    decide +kernel
  have hborder := List.all_eq_true.mp hborders d (by simpa [isBorder, Token.isGap, or_assoc] using hd)
  obtain ⟨hpart, hsigns⟩ : isIdentifierPart d = false
      ∧ ∀ sign ∈ signs, d ∈ sign.toList → sign.toList = [d] ∧ Token.isGap d = false := by
    simpa [imp_iff_not_or] using hborder
  simp only [isLexeme, Bool.or_eq_true, Bool.and_eq_true, List.all_eq_true, List.any_eq_true, beq_iff_eq] at h
  rcases h with ⟨-, hall⟩ | ⟨sign, hsign, rfl⟩
  · exact absurd (hall d hmem) (by simp [hpart])
  · exact hsigns sign hsign hmem

/-- A border neither goes on with other characters nor do others go on with it. -/
theorem isLexeme_beside_border (hd : isBorder d = true) (hne : cs ≠ []) :
    isLexeme (cs ++ [d]) = false ∧ isLexeme (d :: cs) = false := by
  have hlonger : ∀ l : List Char, d ∈ l → 1 < l.length → isLexeme l = false := by
    intro l hmem hlength
    rw [Bool.eq_false_iff]
    intro h
    rw [(eq_singleton_of_isLexeme hd hmem h).1] at hlength
    exact absurd hlength (by simp)
  have hpos : 0 < cs.length := List.length_pos_iff.mpr hne
  constructor
  · exact hlonger _ (by simp) (by simpa using hpos)
  · exact hlonger _ (by simp) (by simpa using hpos)

/-- A border is a lexeme exactly when it is no blank. -/
theorem isLexeme_border (hd : isBorder d = true) : isLexeme [d] = !Token.isGap d := by
  have hseparators : ∀ e ∈ ['(', ')', '\x7b', '\x7d', ';', ',', '.', '?'],
      isLexeme [e] = true ∧ Token.isGap e = false := by
    simp only [List.forall_mem_cons, List.not_mem_nil, false_imp_iff, implies_true, and_true]
    decide +kernel
  by_cases hgap : Token.isGap d = true
  · rw [hgap, Bool.not_true, Bool.eq_false_iff]
    intro h
    have hno := (eq_singleton_of_isLexeme hd (List.mem_singleton_self d) h).2
    simp [hgap] at hno
  · obtain ⟨hlexeme, hno⟩ := hseparators d (by simpa [isBorder, hgap] using hd)
    rw [hlexeme, hno, Bool.not_false]

/-! ## Cutting in parts -/

/-- Behind the tail, whatever stands before it, the characters are cut on their own. -/
def Parts (tail after : List Char) (ys : List String) : Prop :=
  ∀ begun xs, cut? begun tail = some xs → cut? begun (tail ++ after) = some (xs ++ ys)

/-- What is cut on its own behind a tail is so behind all that ends with this tail. -/
theorem Parts.cut?_append {tail : List Char} (h : Parts tail after ys) (hcs : cut? begun (cs ++ tail) = some xs) :
    cut? begun (cs ++ tail ++ after) = some (xs ++ ys) := by
  induction cs generalizing begun xs with
  | nil => exact h begun xs hcs
  | cons c rest ih =>
    rw [List.cons_append, cut?] at hcs
    rw [List.cons_append, List.cons_append, cut?]
    split at hcs
    · next hlexeme =>
      rw [if_pos hlexeme]
      exact ih hcs
    · next hother =>
      rw [if_neg hother]
      split at hcs
      · next hgap =>
        obtain ⟨zs, hzs, rfl⟩ := Option.map_eq_some_iff.mp hcs
        rw [if_pos hgap, ih hzs, Option.map_some, List.append_assoc]
      · next hgap =>
        rw [if_neg hgap]
        split at hcs
        · next hnew =>
          obtain ⟨zs, hzs, rfl⟩ := Option.map_eq_some_iff.mp hcs
          rw [if_pos hnew, ih hzs, Option.map_some, List.append_assoc]
        · exact absurd hcs (by simp)

/-- A lexeme ends where the next character does not go on with it. -/
theorem cut?_of_ends (hends : ∀ e ∈ after.head?, isLexeme (begun ++ [e]) = false) (h : cut? [] after = some ys) :
    cut? begun after = some (ended begun ++ ys) := by
  cases after with
  | nil =>
    rw [cut?, ended, if_pos rfl, Option.some.injEq] at h
    rw [cut?, ← h, List.append_nil]
  | cons e rest =>
    rw [cut?, List.nil_append] at h
    rw [cut?, hends e rfl, if_neg Bool.false_ne_true]
    split at h
    · next hlexeme =>
      have hgap : Token.isGap e = false := by
        rw [Bool.eq_false_iff]
        intro hgap
        have hborder : isBorder e = true := by simp [isBorder, hgap]
        rw [isLexeme_border hborder, hgap] at hlexeme
        exact absurd hlexeme (by decide)
      rw [hgap, if_neg Bool.false_ne_true, if_pos hlexeme, h, Option.map_some]
    · next hother =>
      split at h
      · next hgap =>
        obtain ⟨zs, hzs, rfl⟩ := Option.map_eq_some_iff.mp h
        rw [if_pos hgap, hzs]
        rfl
      · exact absurd h (by simp)

/-- Where characters begin with a border, the lexeme before them ends. -/
theorem parts_of_border_cons (hd : isBorder d = true) (h : cut? [] (d :: after) = some ys) :
    Parts [] (d :: after) ys := by
  intro begun xs hbegun
  rw [cut?, Option.some.injEq] at hbegun
  rw [List.nil_append, ← hbegun]
  by_cases hnew : begun = []
  · rw [hnew, h]
    rfl
  · refine cut?_of_ends (fun e he => ?_) h
    rw [← Option.some.inj he]
    exact (isLexeme_beside_border hd hnew).1

/-- Behind a border, a lexeme begins. -/
theorem parts_singleton_border (hd : isBorder d = true) (h : cut? [] after = some ys) : Parts [d] after ys := by
  have halone : cut? [d] after = some (ended [d] ++ ys) :=
    cut?_of_ends (fun e _ => (isLexeme_beside_border hd (List.cons_ne_nil e [])).2) h
  intro begun xs hbegun
  rw [cut?] at hbegun
  rw [List.singleton_append, cut?]
  split at hbegun
  · next hlexeme =>
    have hnew : begun ++ [d] = [d] := (eq_singleton_of_isLexeme hd (by simp) hlexeme).1
    rw [hnew, cut?, Option.some.injEq] at hbegun
    rw [hnew, if_pos (hnew ▸ hlexeme), halone, hbegun]
  · next hother =>
    rw [if_neg hother]
    split at hbegun
    · next hgap =>
      rw [if_pos hgap, h, ← Option.some.inj hbegun]
      simp [ended]
    · next hgap =>
      have hlexeme : isLexeme [d] = true := by simpa [hgap] using isLexeme_border hd
      rw [if_pos hlexeme, cut?, Option.map_some, Option.some.injEq] at hbegun
      rw [if_neg hgap, if_pos hlexeme, halone, Option.map_some, ← hbegun, List.append_assoc]

/-- Whether a text begins with a border. -/
def opens (text : String) : Bool :=
  text.toList.head?.any isBorder

/-- Whether a text ends with a border. -/
def closes (text : String) : Bool :=
  text.toList.getLast?.any isBorder

/-- **Texts are cut in parts** where the first one ends or the second one begins with a border. -/
theorem ofText?_append {left right : String} (hborder : closes left = true ∨ opens right = true)
    (hleft : ofText? left = some xs) (hright : ofText? right = some ys) :
    ofText? (left ++ right) = some (xs ++ ys) := by
  rw [ofText?, String.toList_append]
  rcases hborder with hcloses | hopens
  · obtain ⟨d, hlast, hd⟩ := (Option.any_eq_true _ _).mp hcloses
    obtain ⟨front, hfront⟩ := List.getLast?_eq_some_iff.mp hlast
    rw [ofText?, hfront] at hleft
    rw [hfront]
    exact (parts_singleton_border hd hright).cut?_append hleft
  · obtain ⟨d, hhead, hd⟩ := (Option.any_eq_true _ _).mp hopens
    obtain ⟨rest, hrest⟩ := List.head?_eq_some_iff.mp hhead
    rw [ofText?, hrest] at hright
    rw [ofText?, ← List.append_nil left.toList] at hleft
    rw [hrest, ← List.append_nil left.toList]
    exact (parts_of_border_cons hd hright).cut?_append hleft

/-- A text between two others, with borders at both of its ends. -/
theorem ofText?_between {left between right : String} {zs : List String}
    (hborders : opens between = true ∧ closes between = true) (hleft : ofText? left = some xs)
    (hbetween : ofText? between = some ys) (hright : ofText? right = some zs) :
    ofText? (left ++ between ++ right) = some (xs ++ ys ++ zs) := by
  have hopened := ofText?_append (.inr hborders.1) hleft hbetween
  refine ofText?_append (.inl ?_) hopened hright
  obtain ⟨d, hlast, hd⟩ := (Option.any_eq_true _ _).mp hborders.2
  rw [closes, String.toList_append, List.getLast?_append, hlast]
  exact hd

/-- A negation is cut off before a name. -/
theorem ofText?_negation {right : String} (hhead : ∀ c ∈ right.toList.head?, isIdentifierPart c = true)
    (h : ofText? right = some ys) : ofText? ("!" ++ right) = some ("!" :: ys) := by
  have hsigns : ∀ sign ∈ signs, sign.toList.head? = some '!' → sign.toList.tail.all (!isIdentifierPart ·) = true := by
    decide +kernel
  have hends : ∀ c ∈ right.toList.head?, isLexeme (['!'] ++ [c]) = false := by
    intro c hc
    have hpart : isIdentifierPart c = true := hhead c hc
    have hno : ∀ sign ∈ signs, ¬sign.toList = ['!', c] := by
      intro sign hsign heq
      have htail := hsigns sign hsign (by rw [heq]; rfl)
      rw [heq] at htail
      simp [hpart] at htail
    have hmark : isIdentifierPart '!' = false := by decide
    simpa [isLexeme, hmark] using hno
  have hlexeme : isLexeme ['!'] = true := by decide +kernel
  rw [ofText?, String.toList_append]
  show cut? [] ('!' :: right.toList) = _
  rw [cut?, List.nil_append, if_pos hlexeme, cut?_of_ends hends h]
  rfl

/-- Texts with line feeds between them are cut each on its own. -/
theorem ofText?_intercalate {pieces : List String} {lexemes : List (List String)}
    (h : List.Forall₂ (fun piece xs => ofText? piece = some xs) pieces lexemes) :
    ofText? ("\n".intercalate pieces) = some lexemes.flatten := by
  have hfeed : ofText? "\n" = some [] := by decide +kernel
  induction h with
  | nil => exact (by decide +kernel : ofText? "" = some [])
  | @cons piece xs pieces lexemes hpiece hrest ih =>
    cases hrest with
    | nil => simpa using hpiece
    | @cons next ys pieces lexemes hnext hothers =>
      rw [String.intercalate_cons_cons, ofText?_between ⟨by decide, by decide⟩ hpiece hfeed ih, List.append_nil]
      rfl

/-! ## Words and numerals -/

/-- Characters of words are cut as one lexeme. -/
theorem cut?_word (begun cs : List Char) (hne : begun ++ cs ≠ []) (hpart : ∀ c ∈ begun ++ cs, isIdentifierPart c = true) :
    cut? begun cs = some [String.ofList (begun ++ cs)] := by
  induction cs generalizing begun with
  | nil =>
    rw [List.append_nil] at hne ⊢
    rw [cut?, ended, if_neg hne]
  | cons c rest ih =>
    rw [List.append_cons] at hne hpart ⊢
    have hword : ∀ e ∈ begun ++ [c], isIdentifierPart e = true := fun e he => hpart e (List.mem_append_left rest he)
    have hlexeme : isLexeme (begun ++ [c]) = true := by
      rw [isLexeme, List.all_eq_true.mpr hword]
      simp
    rw [cut?, if_pos hlexeme]
    exact ih (begun ++ [c]) hne hpart

theorem ofText?_identifier {name : String} (h : isIdentifier name = true) : ofText? name = some [name] := by
  have hne : name.toList ≠ [] := by
    intro hnil
    simp [isIdentifier, hnil] at h
  have hcut := cut?_word [] name.toList hne fun c hc => isIdentifierPart_of_mem h hc
  rwa [List.nil_append, String.ofList_toList] at hcut

theorem ofText?_toString (n : Nat) : ofText? (toString n) = some [toString n] := by
  have hdigits : (toString n).toList = Nat.toDigits 10 n := by simp [toString, Nat.repr]
  have hpart : ∀ c ∈ Nat.toDigits 10 n, isIdentifierPart c = true := by
    intro c hc
    have hdigit : c.isDigit = true := Nat.isDigit_of_mem_toDigits (by decide) (by decide) hc
    simp [isIdentifierPart, Text.isNumeric_of_isDigit hdigit]
  have hcut := cut?_word [] (Nat.toDigits 10 n) Nat.toDigits_ne_nil hpart
  rw [ofText?, hdigits, hcut, List.nil_append, ← hdigits, String.ofList_toList]

example : ofText? "if (a.b>>>=31) !c;" = some ["if", "(", "a", ".", "b", ">>>=", "31", ")", "!", "c", ";"] := by
  decide +kernel

end EntityForge.Java.Lexeme
