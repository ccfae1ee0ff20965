import EntityForge.Proofs.AnnotationTokens
import EntityForge.Proofs.Traversal

/-!
# Annotations read back

An annotation as a compiler takes it from its tokens: a name, and elements under their keys. A numeral is taken as the
number that it writes, however large; whether the number fits a type is not a matter of reading.

Main statement: `AnnotationUse.Says.ofText?_text`, that the text of an annotation is read as what the annotation says.
-/

namespace EntityForge.Java

/-! ## Elements -/

/-- A value without braces. -/
inductive Item where
  | text (value : String)
  | number (value : Int)
  | bool (value : Bool)
  /-- A constant or a class literal, as the words between its points. -/
  | name (parts : List String)
  deriving DecidableEq

/-- The value of an element. -/
inductive ElementValue where
  | one (item : Item)
  | array (items : List Item)
  deriving DecidableEq

/-- An annotation as it is read: its name and its elements. -/
structure AnnotationReading where
  name : String
  elements : List (String × ElementValue)
  deriving DecidableEq

/-- The identifier that a word is. -/
def identifier? (cs : List Char) : Option String :=
  if isIdentifier (String.ofList cs) then some (String.ofList cs) else none

/-- The number that a word writes in decimal digits, without a superfluous zero in front. -/
def numeral? (cs : List Char) : Option Nat :=
  if Nat.toDigits 10 (Nat.ofDigitChars 10 cs 0) = cs then some (Nat.ofDigitChars 10 cs 0) else none

/-- The identifiers with points between them. -/
def names? : List Token → Option (List String)
  | [.word cs] => (identifier? cs).map ([·])
  | .word cs :: .mark '.' :: rest => do
    let name ← identifier? cs
    let others ← names? rest
    pure (name :: others)
  | _ => none

/-- The value that a name is: a truth value, or what it names. -/
def Item.ofNames : List String → Item
  | ["true"] => .bool true
  | ["false"] => .bool false
  | parts => .name parts

/-- The value without braces that the tokens write. -/
def Item.ofTokens? : List Token → Option Item
  | [.text cs] => some (.text (String.ofList cs))
  | [.mark '-', .word cs] => (numeral? cs).map fun n => .number (-n)
  | [.word cs] => ((identifier? cs).map fun name => .ofNames [name]) <|> (numeral? cs).map fun n => .number n
  | ts => (names? ts).map .ofNames

/-- Whether a token opens or closes braces; all others leave it as it is. -/
def insideAfter (inside : Bool) (t : Token) : Bool :=
  if t = .mark '\x7b' then true else if t = .mark '\x7d' then false else inside

/-- The groups of tokens between the commas outside braces. -/
def groups (inside : Bool) : List Token → List (List Token)
  | [] => [[]]
  | t :: rest =>
    if t = .mark ',' ∧ inside = false then [] :: groups false rest
    else (groups (insideAfter inside t) rest).modifyHead (t :: ·)

/-- The groups of tokens between commas, which are none when there are no tokens. -/
def groups? (ts : List Token) : List (List Token) :=
  if ts = [] then [] else groups false ts

/-- What stands before the mark that the tokens end with. -/
def before? (c : Char) (ts : List Token) : Option (List Token) :=
  if ts.getLast? = some (.mark c) then some ts.dropLast else none

/-- The value of an element that the tokens write. -/
def ElementValue.ofTokens? : List Token → Option ElementValue
  | .mark '\x7b' :: rest => do
    let inner ← before? '\x7d' rest
    let items ← (groups? inner).mapM Item.ofTokens?
    pure (.array items)
  | ts => (Item.ofTokens? ts).map .one

/-- The element that the tokens write, with its key if they state one. -/
def element? : List Token → Option (Option String × ElementValue)
  | .word cs :: .mark '=' :: rest => do
    let key ← identifier? cs
    let value ← ElementValue.ofTokens? rest
    pure (some key, value)
  | ts => (ElementValue.ofTokens? ts).map (none, ·)

/-- The elements under their keys. A single value needs no key, and no key may be stated twice. -/
def keyed? : List (Option String × ElementValue) → Option (List (String × ElementValue))
  | [(none, value)] => some [("value", value)]
  | elements => do
    let elements ← elements.mapM fun (key, value) => key.map (·, value)
    if (elements.map Prod.fst).Nodup then pure elements else none

namespace AnnotationReading

/-- The elements that tokens behind the name of an annotation write. -/
def elements? : List Token → Option (List (String × ElementValue))
  | [] => some []
  | .mark '(' :: rest => do
    let inner ← before? ')' rest
    let elements ← (groups? inner).mapM element?
    keyed? elements
  | _ => none

/-- The annotation that the tokens write. -/
def ofTokens? : List Token → Option AnnotationReading
  | .mark '@' :: .word cs :: rest => do
    let name ← identifier? cs
    let elements ← elements? rest
    pure { name, elements }
  | _ => none

/-- The annotation that a text writes. -/
def ofText? (s : String) : Option AnnotationReading :=
  Token.scan s >>= ofTokens?

end AnnotationReading

/-! ## What is said -/

/-- The tokens of a value without braces. -/
def Item.tokens : Item → List Token
  | .text value => [.text value.toList]
  | .number n => Token.ofInt n
  | .bool true => [.word "true".toList]
  | .bool false => [.word "false".toList]
  | .name parts => Token.ofNames parts

/-- The tokens of the value of an element. -/
def ElementValue.tokens : ElementValue → List Token
  | .one item => item.tokens
  | .array items => .mark '\x7b' :: [.mark ','].intercalate (items.map Item.tokens) ++ [.mark '\x7d']

/-- The tokens of an element, with its key if it states one. -/
def elementTokens : Option String × ElementValue → List Token
  | (some key, value) => .word key.toList :: .mark '=' :: value.tokens
  | (none, value) => value.tokens

/-- What the value of an argument says: the names of types and constants are identifiers with points between them. -/
inductive Value.Says : Value → ElementValue → Prop
  | text (value : String) : Value.Says (.text value) (.one (.text value))
  | int (n : Int) : Value.Says (.int n) (.one (.number n))
  | bool (b : Bool) : Value.Says (.bool b) (.one (.bool b))
  | constant {type : List String} {name : String} (hne : type ≠ [])
      (h : ∀ part ∈ type ++ [name], isIdentifier part = true) :
      Value.Says (.constant (".".intercalate type) name) (.one (.name (type ++ [name])))
  | classLiteral {type : String} (h : isIdentifier type = true) :
      Value.Says (.classLiteral type) (.one (.name [type, "class"]))
  | texts (values : List String) : Value.Says (.texts values) (.array (values.map .text))
  | constants {type : List String} {names : List String} (hne : type ≠ [])
      (h : ∀ name ∈ names, ∀ part ∈ type ++ [name], isIdentifier part = true) :
      Value.Says (.constants (".".intercalate type) names) (.array (names.map fun name => .name (type ++ [name])))

/-- One more part stands behind the others, with a separator between. -/
theorem intercalate_concat {parts : List String} (hne : parts ≠ []) (sep last : String) :
    sep.intercalate parts ++ sep ++ last = sep.intercalate (parts ++ [last]) := by
  induction parts with
  | nil => exact absurd rfl hne
  | cons first rest ih =>
    cases rest with
    | nil =>
      rw [List.singleton_append, String.intercalate_cons_cons, String.intercalate_singleton,
        String.intercalate_singleton]
    | cons next others =>
      have hrest := ih (List.cons_ne_nil next others)
      rw [List.cons_append] at hrest
      rw [List.cons_append, List.cons_append, String.intercalate_cons_cons, String.intercalate_cons_cons, ← hrest]
      simp only [String.append_assoc]

/-- The value of an argument is scanned as the tokens of what it says. -/
theorem Value.Says.scans {v : Value} {e : ElementValue} (h : v.Says e) :
    Token.Scans v.written.toList e.tokens := by
  cases h with
  | text value => exact Token.scans_quote value
  | int n => exact Token.scans_int n
  | bool b =>
    cases b with
    | true => exact Token.scans_identifier (show isIdentifier "true" = true by decide)
    | false => exact Token.scans_identifier (show isIdentifier "false" = true by decide)
  | constant hne hparts =>
    rw [Value.written, intercalate_concat hne]
    exact Token.scans_names hparts
  | @classLiteral type htype =>
    have hwritten : type ++ ".class" = ".".intercalate [type, "class"] := by
      rw [← String.toList_inj, String.toList_intercalate, String.toList_append]
      rfl
    rw [Value.written, hwritten]
    refine Token.scans_names (fun part hpart => ?_)
    rcases List.mem_pair.mp hpart with rfl | rfl
    · exact htype
    · decide
  | texts values =>
    refine Token.scans_braced ?_
    rw [List.map_map, List.forall₂_map_left_iff, List.forall₂_map_right_iff, List.forall₂_same]
    exact fun value _ => Token.scans_quote value
  | constants hne hparts =>
    refine Token.scans_braced ?_
    rw [List.map_map, List.forall₂_map_left_iff, List.forall₂_map_right_iff, List.forall₂_same]
    intro name hname
    rw [intercalate_concat hne]
    exact Token.scans_names (hparts name hname)

/-- What an argument says, with its key if it states one. -/
inductive Argument.Says : Argument → Option String × ElementValue → Prop
  | keyed {key : String} {v : Value} {e : ElementValue} (hkey : isIdentifier key = true) (h : v.Says e) :
      Argument.Says { key := some key, value := v } (some key, e)
  | single {v : Value} {e : ElementValue} (h : v.Says e) : Argument.Says { key := none, value := v } (none, e)

/-- An argument is scanned as the tokens of the element that it says. -/
theorem Argument.Says.scans {a : Argument} {element : Option String × ElementValue} (h : a.Says element) :
    Token.Scans a.text.toList (elementTokens element) := by
  cases h with
  | keyed hkey hvalue =>
    rw [Argument.text, String.toList_append, String.toList_append]
    exact (Token.scans_identifier hkey).append_mark (Token.scansMark (c := '=') (by decide)) hvalue.scans
  | single hvalue => exact hvalue.scans

/-- What an annotation says: its name, and its elements under their keys. -/
structure AnnotationUse.Says (use : AnnotationUse) (read : AnnotationReading) : Prop where
  identifier : isIdentifier use.name = true
  name_eq : read.name = use.name
  elements : ∃ elements, List.Forall₂ Argument.Says use.arguments elements ∧ keyed? elements = some read.elements

/-- The tokens of an annotation of some name and elements. -/
def annotationTokens (name : String) (elements : List (Option String × ElementValue)) : List Token :=
  .mark '@' :: .word name.toList ::
    if elements = [] then [] else .mark '(' :: [.mark ','].intercalate (elements.map elementTokens) ++ [.mark ')']

/-- An annotation is scanned as the tokens of what it says. -/
theorem AnnotationUse.scans_text {use : AnnotationUse} {elements : List (Option String × ElementValue)}
    (hname : isIdentifier use.name = true) (h : List.Forall₂ Argument.Says use.arguments elements) :
    Token.Scans use.text.toList (annotationTokens use.name elements) := by
  have hat := Token.scansMark (c := '@') (by decide)
  have hopen := Token.scansMark (c := '(') (by decide)
  have hclose := Token.scansMark (c := ')') (by decide)
  by_cases hempty : use.arguments = []
  · have hnone : elements = [] := List.forall₂_nil_left_iff.mp (hempty ▸ h)
    rw [AnnotationUse.text, annotationTokens, if_pos (by simp [hempty]), if_pos hnone, String.toList_append]
    exact hat.append (Token.scans_identifier hname)
  have hne : elements ≠ [] := by
    rintro rfl
    exact hempty (List.forall₂_nil_right_iff.mp h)
  have hinner : Token.Scans (", ".intercalate (use.arguments.map Argument.text)).toList
      ([.mark ','].intercalate (elements.map elementTokens)) := by
    rw [String.toList_intercalate, List.map_map]
    refine Token.Scans.intercalate Token.scansMark_comma ?_
    rw [List.forall₂_map_left_iff, List.forall₂_map_right_iff]
    exact h.imp fun _ _ => Argument.Says.scans
  have hwhole := hat.append
    ((Token.scans_identifier hname).append_mark hopen (hinner.append_mark hclose Token.scans_nil))
  rw [AnnotationUse.text, annotationTokens, if_neg (by simpa using hempty), if_neg hne]
  simpa using hwhole

/-! ## Finding the parts again -/

theorem identifier?_toList {name : String} (h : isIdentifier name = true) : identifier? name.toList = some name := by
  simp [identifier?, h]

/-- No identifier begins with a digit. -/
theorem identifier?_toDigits (n : Nat) : identifier? (Nat.toDigits 10 n) = none := by
  cases hdigits : Nat.toDigits 10 n with
  | nil => exact absurd hdigits Nat.toDigits_ne_nil
  | cons d rest =>
    have hd : d.isDigit = true :=
      Nat.isDigit_of_mem_toDigits (by decide) (by decide) (hdigits ▸ List.mem_cons_self)
    simp [identifier?, isIdentifier, not_isIdentifierStart_of_isDigit hd]

theorem names?_ofNames {parts : List String} (hne : parts ≠ []) (h : ∀ part ∈ parts, isIdentifier part = true) :
    names? (Token.ofNames parts) = some parts := by
  induction parts with
  | nil => exact absurd rfl hne
  | cons part rest ih =>
    have hpart := identifier?_toList (h part List.mem_cons_self)
    cases rest with
    | nil => simp [Token.ofNames, names?, hpart]
    | cons next others =>
      have hrest := ih (by simp) fun p hp => h p (List.mem_cons_of_mem part hp)
      rw [Token.ofNames_cons_cons, names?, hpart, hrest]
      rfl

theorem numeral?_toDigits (n : Nat) : numeral? (Nat.toDigits 10 n) = some n := by
  simp [numeral?]

/-- The values without braces that can be told apart: names are made of identifiers, and at least of two. -/
def Item.Plain : Item → Prop
  | .name parts => 2 ≤ parts.length ∧ ∀ part ∈ parts, isIdentifier part = true
  | _ => True

theorem exists_cons_cons {parts : List String} (h : 2 ≤ parts.length) :
    ∃ first second others, parts = first :: second :: others := by
  cases parts with
  | nil => simp at h
  | cons first rest =>
    cases rest with
    | nil => simp at h
    | cons second others => exact ⟨first, second, others, rfl⟩

theorem Item.ofTokens?_tokens {item : Item} (h : item.Plain) : Item.ofTokens? item.tokens = some item := by
  cases item with
  | text value => simp [Item.tokens, Item.ofTokens?]
  | number n =>
    by_cases hn : n < 0
    · have hback : -(n.natAbs : Int) = n := by omega
      rw [Item.tokens, Token.ofInt, if_pos hn, List.singleton_append, Item.ofTokens?, numeral?_toDigits]
      show some (Item.number (-(n.natAbs : Int))) = some (.number n)
      rw [hback]
    · have hback : (n.natAbs : Int) = n := by omega
      rw [Item.tokens, Token.ofInt, if_neg hn, List.nil_append, Item.ofTokens?, identifier?_toDigits,
        numeral?_toDigits]
      show some (Item.number (n.natAbs : Int)) = some (.number n)
      rw [hback]
  | bool b =>
    cases b with
    | true => rfl
    | false => rfl
  | name parts =>
    obtain ⟨hlength, hparts⟩ := h
    obtain ⟨first, second, others, rfl⟩ := exists_cons_cons hlength
    have hnames := names?_ofNames (by simp) hparts
    rw [Token.ofNames_cons_cons] at hnames
    rw [Item.tokens, Token.ofNames_cons_cons, Item.ofTokens?, hnames]
    · simp [Item.ofNames]
    all_goals simp

/-! ## Groups between commas -/

/-- The tokens belong to one group, and lead from braces or their outside to braces or their outside. -/
def Token.Passes (before after : Bool) (ts : List Token) : Prop :=
  ∀ rest, groups before (ts ++ rest) = (groups after rest).modifyHead (ts ++ ·)

namespace Token.Passes

variable {before inside after : Bool} {ts ts' : List Token}

theorem nil (inside : Bool) : Passes inside inside [] := by
  intro rest
  rw [List.nil_append]
  cases groups inside rest <;> rfl

theorem append (h : Passes before inside ts) (h' : Passes inside after ts') : Passes before after (ts ++ ts') := by
  intro rest
  rw [List.append_assoc, h, h']
  cases groups after rest <;> simp

/-- A token that neither separates nor opens nor closes belongs to the group that it stands in. -/
theorem cons {t : Token} (ht : t ≠ .mark ',' ∧ t ≠ .mark '\x7b' ∧ t ≠ .mark '\x7d') (h : Passes inside after ts) :
    Passes inside after (t :: ts) := by
  intro rest
  rw [List.cons_append, groups, if_neg (fun hcomma => ht.1 hcomma.1), insideAfter, if_neg ht.2.1, if_neg ht.2.2, h]
  cases groups after rest <;> simp

theorem of_forall (h : ∀ t ∈ ts, t ≠ .mark ',' ∧ t ≠ .mark '\x7b' ∧ t ≠ .mark '\x7d') :
    Passes inside inside ts := by
  induction ts with
  | nil => exact .nil inside
  | cons t rest ih =>
    exact cons (h t List.mem_cons_self) (ih fun u hu => h u (List.mem_cons_of_mem t hu))

/-- Between braces commas belong to the group. -/
theorem comma (h : Passes true after ts) : Passes true after (.mark ',' :: ts) := by
  intro rest
  rw [List.cons_append, groups, if_neg (by simp), insideAfter, if_neg (by decide), if_neg (by decide), h]
  cases groups after rest <;> simp

theorem openBrace (h : Passes true after ts) : Passes inside after (.mark '\x7b' :: ts) := by
  intro rest
  rw [List.cons_append, groups, if_neg (by simp), insideAfter, if_pos rfl, h]
  cases groups after rest <;> simp

theorem closeBrace (h : Passes false after ts) : Passes inside after (.mark '\x7d' :: ts) := by
  intro rest
  rw [List.cons_append, groups, if_neg (by simp), insideAfter, if_neg (by decide), if_pos rfl, h]
  cases groups after rest <;> simp

/-- Pieces with commas between them belong to one group between braces. -/
theorem intercalate {pieces : List (List Token)} (h : ∀ piece ∈ pieces, Passes true true piece) :
    Passes true true ([.mark ','].intercalate pieces) := by
  induction pieces with
  | nil => exact .nil true
  | cons first rest ih =>
    have hfirst := h first List.mem_cons_self
    cases rest with
    | nil => rwa [List.intercalate_singleton]
    | cons next others =>
      rw [List.intercalate_cons_cons, List.append_assoc]
      exact hfirst.append (comma (ih fun piece hpiece => h piece (List.mem_cons_of_mem first hpiece)))

end Token.Passes

/-- Groups with commas between them are found again. -/
theorem groups?_intercalate {pieces : List (List Token)}
    (h : ∀ piece ∈ pieces, piece ≠ [] ∧ Token.Passes false false piece) :
    groups? ([.mark ','].intercalate pieces) = pieces := by
  have hgroups : ∀ first rest, (∀ piece ∈ first :: rest, Token.Passes false false piece) →
      groups false ([.mark ','].intercalate (first :: rest)) = first :: rest := by
    intro first rest hpasses
    induction rest generalizing first with
    | nil =>
      have hfirst := hpasses first List.mem_cons_self []
      rw [List.append_nil] at hfirst
      rw [List.intercalate_singleton, hfirst]
      simp [groups]
    | cons next others ih =>
      have hfirst := hpasses first List.mem_cons_self
      have hrest := ih next fun piece hpiece => hpasses piece (List.mem_cons_of_mem first hpiece)
      rw [List.intercalate_cons_cons, List.append_assoc, hfirst, List.singleton_append, groups,
        if_pos ⟨rfl, rfl⟩, hrest]
      simp
  cases pieces with
  | nil => rfl
  | cons first rest =>
    have hne : [Token.mark ','].intercalate (first :: rest) ≠ [] := by
      have hfirst := (h first List.mem_cons_self).1
      cases rest <;> simp [List.intercalate_cons_cons, hfirst]
    rw [groups?, if_neg hne]
    exact hgroups first rest fun piece hpiece => (h piece hpiece).2

/-! ## Reading what is said -/

/-- The values that can be told apart. -/
def ElementValue.Plain : ElementValue → Prop
  | .one item => item.Plain
  | .array items => ∀ item ∈ items, item.Plain

theorem Item.tokens_ne_nil {item : Item} (h : item.Plain) : item.tokens ≠ [] := by
  cases item with
  | text value => simp [Item.tokens]
  | number n => simp [Item.tokens, Token.ofInt]
  | bool b => cases b <;> simp [Item.tokens]
  | name parts =>
    obtain ⟨first, second, others, rfl⟩ := exists_cons_cons h.1
    rw [Item.tokens, Token.ofNames_cons_cons]
    exact List.cons_ne_nil _ _

/-- Only minus signs and points stand between the words of a value without braces. -/
theorem Item.of_mark_mem_tokens {item : Item} {c : Char} (h : .mark c ∈ item.tokens) : c = '-' ∨ c = '.' := by
  cases item with
  | text value => simp [Item.tokens] at h
  | number n =>
    by_cases hn : n < 0
    · simp [Item.tokens, Token.ofInt, hn] at h
      exact .inl h
    · simp [Item.tokens, Token.ofInt, hn] at h
  | bool b => cases b <;> simp [Item.tokens] at h
  | name parts =>
    induction parts with
    | nil => simp [Item.tokens, Token.ofNames] at h
    | cons first rest ih =>
      cases rest with
      | nil => simp [Item.tokens, Token.ofNames] at h
      | cons second others =>
        rw [Item.tokens, Token.ofNames_cons_cons, List.mem_cons, List.mem_cons] at h
        rcases h with h | h | h
        · exact absurd h (by simp)
        · exact .inr (by simpa using h)
        · exact ih h

/-- No comma and no brace stands in a value without braces. -/
theorem Item.passes (item : Item) (inside : Bool) : Token.Passes inside inside item.tokens := by
  refine .of_forall fun t ht => ⟨?_, ?_, ?_⟩
  all_goals
    rintro rfl
    exact absurd (Item.of_mark_mem_tokens ht) (by decide)

/-- Braces are closed where the value of an element ends. -/
theorem ElementValue.passes (e : ElementValue) : Token.Passes false false e.tokens := by
  cases e with
  | one item => exact item.passes false
  | array items =>
    have hinner : Token.Passes true true ([.mark ','].intercalate (items.map Item.tokens)) := by
      refine .intercalate fun piece hpiece => ?_
      obtain ⟨item, -, rfl⟩ := List.mem_map.mp hpiece
      exact item.passes true
    exact (hinner.append (.closeBrace (.nil false))).openBrace

theorem ElementValue.tokens_ne_nil {e : ElementValue} (h : e.Plain) : e.tokens ≠ [] := by
  cases e with
  | one item => exact Item.tokens_ne_nil h
  | array items => exact List.cons_ne_nil _ _

theorem before?_concat (c : Char) (ts : List Token) : before? c (ts ++ [.mark c]) = some ts := by
  simp [before?]

theorem ElementValue.ofTokens?_tokens {e : ElementValue} (h : e.Plain) : ofTokens? e.tokens = some e := by
  cases e with
  | one item =>
    have hitem : (Item.ofTokens? item.tokens).map ElementValue.one = some (.one item) := by
      rw [Item.ofTokens?_tokens h]
      rfl
    rw [ElementValue.tokens, ElementValue.ofTokens?]
    · exact hitem
    · intro rest hrest
      have hmem : Token.mark '\x7b' ∈ item.tokens := by simp [hrest]
      exact absurd (Item.of_mark_mem_tokens hmem) (by decide)
  | array items =>
    have hitems : (items.map Item.tokens).mapM Item.ofTokens? = some items := by
      refine mapM_eq_some_of_forall₂ ?_
      rw [List.forall₂_map_left_iff, List.forall₂_same]
      exact fun item hitem => Item.ofTokens?_tokens (h item hitem)
    have hgroups : groups? ([.mark ','].intercalate (items.map Item.tokens)) = items.map Item.tokens := by
      refine groups?_intercalate fun piece hpiece => ?_
      obtain ⟨item, hitem, rfl⟩ := List.mem_map.mp hpiece
      exact ⟨Item.tokens_ne_nil (h item hitem), item.passes false⟩
    rw [ElementValue.tokens, List.cons_append, ElementValue.ofTokens?, before?_concat, Option.bind_eq_bind,
      Option.bind_some, hgroups, hitems]
    rfl

theorem element?_elementTokens {element : Option String × ElementValue} (h : element.2.Plain)
    (hkey : ∀ key ∈ element.1, isIdentifier key = true) : element? (elementTokens element) = some element := by
  obtain ⟨key, value⟩ := element
  cases key with
  | some key =>
    rw [elementTokens, element?, identifier?_toList (hkey key rfl), ElementValue.ofTokens?_tokens h]
    rfl
  | none =>
    rw [elementTokens, element?]
    · rw [ElementValue.ofTokens?_tokens h]
      rfl
    · intro cs rest htokens
      cases value with
      | one item =>
        have hmem : Token.mark '=' ∈ item.tokens := by simp [ElementValue.tokens] at htokens; simp [htokens]
        exact absurd (Item.of_mark_mem_tokens hmem) (by decide)
      | array items => simp [ElementValue.tokens] at htokens

theorem elementTokens_passes (element : Option String × ElementValue) :
    Token.Passes false false (elementTokens element) := by
  obtain ⟨key, value⟩ := element
  cases key with
  | some key => exact (value.passes.cons (by decide)).cons (by simp)
  | none => exact value.passes

theorem elementTokens_ne_nil {element : Option String × ElementValue} (h : element.2.Plain) :
    elementTokens element ≠ [] := by
  obtain ⟨key, value⟩ := element
  cases key with
  | some key => exact List.cons_ne_nil _ _
  | none => exact ElementValue.tokens_ne_nil h

/-- What is said is told apart. -/
theorem Value.Says.plain {v : Value} {e : ElementValue} (h : v.Says e) : e.Plain := by
  have hlength : ∀ {type : List String} (name : String), type ≠ [] → 2 ≤ (type ++ [name]).length := by
    intro type name hne
    rw [List.length_append, List.length_singleton]
    exact Nat.succ_le_succ (List.length_pos_iff.mpr hne)
  cases h with
  | text value => exact trivial
  | int n => exact trivial
  | bool b => exact trivial
  | constant hne hparts => exact ⟨hlength _ hne, hparts⟩
  | classLiteral htype =>
    refine ⟨Nat.le_refl 2, fun part hpart => ?_⟩
    rcases List.mem_pair.mp hpart with rfl | rfl
    · exact htype
    · decide
  | texts values =>
    intro item hitem
    obtain ⟨value, -, rfl⟩ := List.mem_map.mp hitem
    exact trivial
  | constants hne hparts =>
    intro item hitem
    obtain ⟨name, hname, rfl⟩ := List.mem_map.mp hitem
    exact ⟨hlength name hne, hparts name hname⟩

/-- **Written annotations are read back**: the text of an annotation is read as what the annotation says. -/
theorem AnnotationUse.Says.ofText?_text {use : AnnotationUse} {read : AnnotationReading} (h : use.Says read) :
    AnnotationReading.ofText? use.text = some read := by
  obtain ⟨name, read⟩ := read
  obtain ⟨hname, hread, elements, hsays, hkeyed⟩ := h
  subst hread
  have hscan : Token.scan use.text = some (annotationTokens use.name elements) :=
    (use.scans_text hname hsays).scanFrom_eq
  have hplain : ∀ element ∈ elements, element.2.Plain ∧ ∀ key ∈ element.1, isIdentifier key = true := by
    intro element helement
    obtain ⟨a, -, hsays⟩ := exists_mem_right_of_forall₂ hsays.flip helement
    cases hsays with
    | keyed hkey hvalue => exact ⟨hvalue.plain, by simpa using hkey⟩
    | single hvalue => exact ⟨hvalue.plain, by simp⟩
  have hgroups : groups? ([.mark ','].intercalate (elements.map elementTokens)) = elements.map elementTokens := by
    refine groups?_intercalate fun piece hpiece => ?_
    obtain ⟨element, helement, rfl⟩ := List.mem_map.mp hpiece
    exact ⟨elementTokens_ne_nil (hplain element helement).1, elementTokens_passes element⟩
  have helements : (elements.map elementTokens).mapM element? = some elements := by
    refine mapM_eq_some_of_forall₂ ?_
    rw [List.forall₂_map_left_iff, List.forall₂_same]
    exact fun element helement => element?_elementTokens (hplain element helement).1 (hplain element helement).2
  have hread : AnnotationReading.elements? (if elements = [] then [] else
      .mark '(' :: [.mark ','].intercalate (elements.map elementTokens) ++ [.mark ')']) = some read := by
    by_cases hnone : elements = []
    · subst hnone
      exact hkeyed
    · rw [if_neg hnone, List.cons_append, AnnotationReading.elements?, before?_concat, Option.bind_eq_bind,
        Option.bind_some, hgroups, helements]
      exact hkeyed
  rw [AnnotationReading.ofText?, hscan, annotationTokens, Option.bind_eq_bind, Option.bind_some, AnnotationReading.ofTokens?,
    identifier?_toList hname, hread]
  rfl

/-! ## Elements under their keys -/

/-- The elements that are stated, of keys that may have a value or none. -/
def stated (form : List (String × Option ElementValue)) : List (String × ElementValue) :=
  form.filterMap fun (key, value) => value.map (key, ·)

theorem stated_append (form form' : List (String × Option ElementValue)) :
    stated (form ++ form') = stated form ++ stated form' :=
  List.filterMap_append

/-- Stated keys are keys of the form, in its order. -/
theorem keys_stated_sublist (form : List (String × Option ElementValue)) :
    ((stated form).map Prod.fst).Sublist (form.map Prod.fst) := by
  induction form with
  | nil => exact .slnil
  | cons entry rest ih =>
    obtain ⟨key, value⟩ := entry
    cases value with
    | none => exact ih.cons key
    | some value => exact ih.cons_cons key

/-- Elements with different keys stay as they are. -/
theorem keyed?_map_some {elements : List (String × ElementValue)} (h : (elements.map Prod.fst).Nodup) :
    keyed? (elements.map fun (key, value) => (some key, value)) = some elements := by
  have hkeys : (elements.map fun (key, value) => (some key, value)).mapM
      (fun (key, value) => key.map (·, value)) = some elements := by
    refine mapM_eq_some_of_forall₂ ?_
    rw [List.forall₂_map_left_iff, List.forall₂_same]
    exact fun element _ => rfl
  rw [keyed?]
  · rw [hkeys, Option.bind_eq_bind, Option.bind_some, if_pos h]
    rfl
  · intro value hvalue
    cases elements <;> simp at hvalue

/-- Keys change none of the values, nor their order. -/
theorem map_snd_of_keyed?_eq_some {elements : List (Option String × ElementValue)}
    {read : List (String × ElementValue)} (h : keyed? elements = some read) :
    read.map Prod.snd = elements.map Prod.snd := by
  unfold keyed? at h
  split at h
  · cases h
    rfl
  · obtain ⟨named, hnamed, h⟩ := Option.bind_eq_some_iff.mp h
    split at h
    · cases h
      rw [← List.forall₂_eq_eq_eq, List.forall₂_map_left_iff, List.forall₂_map_right_iff]
      refine (forall₂_of_mapM_eq_some hnamed).flip.imp fun entry element hentry => ?_
      obtain ⟨key, -, rfl⟩ := Option.map_eq_some_iff.mp hentry
      rfl
    · cases h

/-- Nothing is stated for a key that the form does not have. -/
theorem lookup_stated_eq_none {key : String} {form : List (String × Option ElementValue)}
    (h : key ∉ form.map Prod.fst) : (stated form).lookup key = none := by
  rw [List.lookup_eq_none_iff]
  intro element helement
  rw [bne_iff_ne]
  rintro rfl
  exact h ((keys_stated_sublist form).subset (List.mem_map_of_mem helement))

/-- When the keys differ, what is stated for a key is its value in the form. -/
theorem lookup_stated_of_mem {key : String} {value : Option ElementValue}
    {form : List (String × Option ElementValue)} (hnodup : (form.map Prod.fst).Nodup) (h : (key, value) ∈ form) :
    (stated form).lookup key = value := by
  obtain ⟨before, after, rfl⟩ := List.append_of_mem h
  rw [List.map_append, List.map_cons, List.nodup_middle, List.nodup_cons, List.mem_append, not_or] at hnodup
  obtain ⟨⟨hbefore, hafter⟩, -⟩ := hnodup
  have hone : stated ((key, value) :: after) = (value.map (key, ·)).toList ++ stated after := by
    cases value <;> simp [stated]
  rw [stated_append, List.lookup_append, lookup_stated_eq_none hbefore, Option.none_or, hone, List.lookup_append,
    lookup_stated_eq_none hafter]
  cases value <;> simp

/-- The arguments of an annotation state the elements of a form. -/
def AnnotationUse.States (use : AnnotationUse) (form : List (String × Option ElementValue)) : Prop :=
  List.Forall₂ Argument.Says use.arguments ((stated form).map fun (key, value) => (some key, value))

namespace AnnotationUse.States

variable {use : AnnotationUse} {form : List (String × Option ElementValue)} {key : String}

theorem plain (package name : String) : (AnnotationUse.plain package name).States [] :=
  List.Forall₂.nil

theorem arg? (h : use.States form) (hkey : isIdentifier key = true) {v : Option Value} {e : Option ElementValue}
    (hvalue : Option.Rel Value.Says v e) : (use.arg? key v).States (form ++ [(key, e)]) := by
  unfold AnnotationUse.States
  rw [arguments_arg?, stated_append, List.map_append]
  refine List.rel_append h ?_
  cases hvalue with
  | none => exact .nil
  | some hsays => exact .cons (.keyed hkey hsays) .nil

theorem arg (h : use.States form) (hkey : isIdentifier key = true) {v : Value} {e : ElementValue}
    (hvalue : v.Says e) : (use.arg key v).States (form ++ [(key, some e)]) :=
  h.arg? hkey (.some hvalue)

/-- What an annotation states under different keys is read back. -/
theorem ofText?_text (h : use.States form) (hname : isIdentifier use.name = true)
    (hkeys : (form.map Prod.fst).Nodup) :
    AnnotationReading.ofText? use.text = some { name := use.name, elements := stated form } := by
  have hnodup : ((stated form).map Prod.fst).Nodup := (keys_stated_sublist form).nodup hkeys
  exact AnnotationUse.Says.ofText?_text ⟨hname, rfl, _, h, keyed?_map_some hnodup⟩

end AnnotationUse.States

end EntityForge.Java
