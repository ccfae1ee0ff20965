import EntityForge.Metamodel.Extension
import EntityForge.Text.Blank

/-!
# Placing what is written by hand

Annotations and code written by hand are kept with their places, in the order in which they were given. Code at
an import place becomes an import statement, and an annotation gets its at sign.
-/

namespace EntityForge

/-- The import statement that an author means by a text: the keyword before it and the semicolon after it are
added unless they are there. -/
def importStatement (raw : String) : String :=
  let trimmed := Text.trim raw
  let statement := if "import ".toList.isPrefixOf trimmed.toList then trimmed else "import " ++ trimmed
  if statement.toList.getLast? = some ';' then statement else statement ++ ";"

/-- Texts with their places, in the order in which they were given. -/
abbrev Placed (L : Type) :=
  List (L × String)

namespace Placed

variable {L : Type}

/-- The texts at a place, in order. -/
def textsAt [DecidableEq L] (placed : Placed L) (place : L) : List String :=
  (placed.filter (·.1 == place)).map (·.2)

/-- The places that hold a text, in their own order, each with its texts. -/
def byPlace [DecidableEq L] [Spelled L] (placed : Placed L) : List (L × List String) :=
  ((Spelled.values : List L).map fun place => (place, placed.textsAt place)).filter (!·.2.isEmpty)

/-- The enabled code that is not blank, with its places. -/
def ofSnippets [CodePlace L] (snippets : List (SnippetAt L)) : Placed L :=
  (snippets.filter fun s => s.enabled && !Text.isBlank s.value).map fun s =>
    (s.location, if CodePlace.isImport s.location then importStatement s.value else s.value)

/-- The annotation that an author means by a text. -/
def withAtSign (text : String) : String :=
  if text.toList.head? = some '@' then text else "@" ++ text

/-- The enabled annotations that are not blank, with their places. -/
def ofAnnotations (annotations : List (AnnotationAt L)) : Placed L :=
  (annotations.filter fun a => a.enabled && !Text.isBlank a.name).map fun a =>
    (a.location, withAtSign (Text.trim a.name))

end Placed

end EntityForge
