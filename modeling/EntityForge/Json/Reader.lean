import EntityForge.Json.Token

/-!
# Reading a value

A value is read from its tokens by a machine with a stack: one frame for each array or object that is open. The
machine takes one token at a time, so values may be nested to any depth.
-/

namespace EntityForge.Json

/-- A field name; `none` when its escapes spell no text. -/
abbrev Key := Option String

/-- An array or object that is open: what it holds so far, last first. -/
inductive Frame where
  | items (before : List Json)
  | members (before : List (Key × Json)) (key : Key)

/-- What may come next, within the open arrays and objects. -/
inductive Position where
  /-- A value. -/
  | value (stack : List Frame)
  /-- The first item of an array, or its end. -/
  | itemOrEnd (stack : List Frame)
  /-- The first field name of an object, or its end. -/
  | keyOrEnd (stack : List Frame)
  /-- A further field name of an object. -/
  | key (before : List (Key × Json)) (stack : List Frame)
  /-- The colon after a field name. -/
  | colon (before : List (Key × Json)) (key : Key) (stack : List Frame)
  /-- A value has been read: the next item or field, or the end of what is open. -/
  | after (value : Json) (stack : List Frame)

/-- The object with the given fields, ill-formed when a field name spells no text. -/
def ofMembers (members : List (Key × Json)) : Json :=
  match members.mapM fun (key, value) => key.map (·, value) with
  | some fields => .object fields
  | none => .illFormed

/-- The position after the first token of a value. -/
def begin? (stack : List Frame) : Token → Option Position
  | .openBrace => some (.keyOrEnd stack)
  | .openBracket => some (.itemOrEnd stack)
  | .null => some (.after .null stack)
  | .bool b => some (.after (.bool b) stack)
  | .number n => some (.after (.number n) stack)
  | .text (some s) => some (.after (.text s) stack)
  | .text none => some (.after .illFormed stack)
  | _ => none

/-- The position after one more token, unless the token may not stand there. -/
def advance? : Position → Token → Option Position
  | .value stack, t => begin? stack t
  | .itemOrEnd stack, .closeBracket => some (.after (.array []) stack)
  | .itemOrEnd stack, t => begin? (.items [] :: stack) t
  | .keyOrEnd stack, .closeBrace => some (.after (.object []) stack)
  | .keyOrEnd stack, .text key => some (.colon [] key stack)
  | .key before stack, .text key => some (.colon before key stack)
  | .colon before key stack, .colon => some (.value (.members before key :: stack))
  | .after v (.items before :: stack), .comma => some (.value (.items (v :: before) :: stack))
  | .after v (.items before :: stack), .closeBracket => some (.after (.array (v :: before).reverse) stack)
  | .after v (.members before key :: stack), .comma => some (.key ((key, v) :: before) stack)
  | .after v (.members before key :: stack), .closeBrace =>
    some (.after (ofMembers ((key, v) :: before).reverse) stack)
  | _, _ => none

/-- The position after all the tokens. -/
def advanceAll? (position : Position) (tokens : List Token) : Option Position :=
  tokens.foldlM advance? position

/-- The value read, when nothing is left open. -/
def Position.done? : Position → Option Json
  | .after v [] => some v
  | _ => none

/-- The value whose tokens these are. -/
def ofTokens? (tokens : List Token) : Option Json := do
  let position ← advanceAll? (.value []) tokens
  position.done?

/-- The value a text writes. -/
def ofText? (s : String) : Option Json := do
  let tokens ← Token.scan s
  ofTokens? tokens

end EntityForge.Json
