import EntityForge.Json.Magnitude
import EntityForge.Text.Spelled

/-!
# Reading typed values and records

A record is read from an object by the names of its fields, or from an array by their order. An object may hold
fields that the record does not know, but each known field once only; an array may stop early but not go on
after the last field.
-/

namespace EntityForge.Json

/-! ## Plain values -/

/-- The text of a value. -/
def text? : Json → Option String
  | .text s => some s
  | _ => none

/-- The truth value of a value. -/
def bool? : Json → Option Bool
  | .bool b => some b
  | _ => none

/-- The integer of a value, if it is written as one. -/
def integer? : Json → Option Int
  | .number n => n.toInt?
  | _ => none

/-- The integer of a value, if it fits 32 bits without sign. -/
def uint32? (v : Json) : Option UInt32 := do
  let n ← v.integer?
  if 0 ≤ n ∧ n < UInt32.size then some (UInt32.ofNat n.toNat) else none

/-- The integer of a value, if it fits 64 bits without sign. -/
def uint64? (v : Json) : Option UInt64 := do
  let n ← v.integer?
  if 0 ≤ n ∧ n < UInt64.size then some (UInt64.ofNat n.toNat) else none

/-- The integer of a value, if it fits 64 bits with a sign. -/
def int64? (v : Json) : Option Int64 := do
  let n ← v.integer?
  if -0x8000000000000000 ≤ n ∧ n < 0x8000000000000000 then some (Int64.ofInt n) else none

/-- Nothing for null, and otherwise what `read` finds. -/
def optional? {α : Type} (read : Json → Option α) : Json → Option (Option α)
  | .null => some none
  | v => (read v).map some

/-- The items of an array, each read by `read`. -/
def list? {α : Type} (read : Json → Option α) : Json → Option (List α)
  | .array items => items.mapM read
  | _ => none

/-- A value spelled by a word: the word itself, or an object that holds null under the word. -/
def word? {α : Type} [Spelled α] : Json → Option α
  | .text word => Spelled.ofWord? word
  | .object [(word, .null)] => Spelled.ofWord? word
  | _ => none

/-- A value spelled by a word inside a tagged record, where the object may also hold an empty object. -/
def taggedWord? {α : Type} [Spelled α] : Json → Option α
  | .object [(word, .object [])] => Spelled.ofWord? word
  | v => v.word?

/-! ## Records -/

/-- The fields found for a record. -/
abbrev Record :=
  List (String × Json)

/-- The fields of a record whose field names are `names`, in the order of its declaration. -/
def record? (names : List String) : Json → Option Record
  | .object fields =>
    let known := fields.filter fun field => names.contains field.1
    if (known.map (·.1)).Nodup then some known else none
  | .array items => if items.length ≤ names.length then some (names.zip items) else none
  | _ => none

namespace Record

variable {α : Type}

/-- The value of a field that has to be there. -/
def required (record : Record) (name : String) (read : Json → Option α) : Option α := do
  let v ← record.lookup name
  read v

/-- The value of a field that stands for `default` when it is left out. -/
def optional (record : Record) (name : String) (default : α) (read : Json → Option α) : Option α :=
  match record.lookup name with
  | some v => read v
  | none => some default

/-- The value of a field that may be left out or null. -/
def nullable (record : Record) (name : String) (read : Json → Option α) : Option (Option α) :=
  record.optional name none (optional? read)

/-- The items of a field that may be left out. -/
def items (record : Record) (name : String) (read : Json → Option α) : Option (List α) :=
  record.optional name [] (list? read)

/-- A flag that is off when it is left out. -/
def flag (record : Record) (name : String) : Option Bool :=
  record.optional name false bool?

end Record

/-! ## Tagged records -/

mutual

/-- Whether a value that is set aside before its reader is known can be kept: at most `room` levels of nesting,
all texts spelled, all numbers in range. -/
def keepable (room : Nat) : Json → Bool
  | .illFormed => false
  | .number n => !n.outOfRange
  | .array items => 0 < room && itemsKeepable (room - 1) items
  | .object fields => 0 < room && fieldsKeepable (room - 1) fields
  | _ => true

/-- Whether all items can be kept. -/
def itemsKeepable (room : Nat) : List Json → Bool
  | [] => true
  | item :: items => keepable room item && itemsKeepable room items

/-- Whether the values of all fields can be kept. -/
def fieldsKeepable (room : Nat) : List (String × Json) → Bool
  | [] => true
  | (_, value) :: fields => keepable room value && fieldsKeepable room fields

end

/-- The only value under a name. -/
def sole? (name : String) (fields : List (String × Json)) : Option Json :=
  match fields.filter (·.1 == name) with
  | [field] => some field.2
  | _ => none

/-- A tagged record: the text under `kind` or at the head of an array, and the rest of the object or array. The
rest is set aside, so all of it has to be keepable. -/
def tagged? (room : Nat) : Json → Option (String × Json)
  | .object fields => do
    let tag ← sole? "kind" fields
    let kind ← tag.text?
    let rest := fields.filter (·.1 != "kind")
    if 0 < room && fieldsKeepable (room - 1) rest then some (kind, .object rest) else none
  | .array (tag :: rest) => do
    let kind ← tag.text?
    if 0 < room && itemsKeepable (room - 1) rest then some (kind, .array rest) else none
  | _ => none

/-- What is left of a tagged record whose kind has no options: any object, or no item. -/
def noOptions? : Json → Option Unit
  | .object _ => some ()
  | .array [] => some ()
  | _ => none

end EntityForge.Json
