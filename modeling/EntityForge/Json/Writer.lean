import EntityForge.Json.Token

/-!
# Writing a value

A value is written without blanks, its fields in their order.
-/

namespace EntityForge.Json

mutual

/-- The tokens of a value. -/
def tokens : Json → List Token
  | .null => [.null]
  | .bool b => [.bool b]
  | .number n => [.number n]
  | .text s => [.text (some s)]
  | .illFormed => [.text none]
  | .array [] => [.openBracket, .closeBracket]
  | .array (item :: items) => .openBracket :: tokens item ++ itemTokens items ++ [.closeBracket]
  | .object [] => [.openBrace, .closeBrace]
  | .object ((key, value) :: fields) =>
    .openBrace :: .text (some key) :: .colon :: tokens value ++ fieldTokens fields ++ [.closeBrace]

/-- The tokens of further items, a comma before each. -/
def itemTokens : List Json → List Token
  | [] => []
  | item :: items => .comma :: tokens item ++ itemTokens items

/-- The tokens of further fields, a comma before each. -/
def fieldTokens : List (String × Json) → List Token
  | [] => []
  | (key, value) :: fields => .comma :: .text (some key) :: .colon :: tokens value ++ fieldTokens fields

end

/-- The text that writes a value. -/
def render (v : Json) : String :=
  String.ofList (v.tokens.flatMap Token.write)

end EntityForge.Json
