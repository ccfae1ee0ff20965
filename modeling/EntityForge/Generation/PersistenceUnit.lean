import EntityForge.Generation.Catalogue
import EntityForge.Text.Lines

/-!
# The descriptor of a persistence unit

An XML document that names the persistence unit and its entities.
-/

namespace EntityForge

namespace Xml

/-- A character of the text of an element. -/
def textChar : Char → List Char
  | '&' => "&amp;".toList
  | '<' => "&lt;".toList
  | '>' => "&gt;".toList
  | c => [c]

/-- A character of the value of an attribute. -/
def attributeChar : Char → List Char
  | '"' => "&quot;".toList
  | c => textChar c

/-- A text as it stands in an element. -/
def text (s : String) : String :=
  String.ofList (s.toList.flatMap textChar)

/-- A text as it stands in an attribute. -/
def attributeText (s : String) : String :=
  String.ofList (s.toList.flatMap attributeChar)

/-- The opening tag of an element with its attributes. -/
def openTag (name : String) (attributes : List (String × String)) : String :=
  "<" ++ name ++ String.join (attributes.map fun (key, value) => " " ++ key ++ "=\"" ++ attributeText value ++ "\"")
    ++ ">"

/-- The closing tag of an element. -/
def closeTag (name : String) : String :=
  "</" ++ name ++ ">"

/-- An element that holds a text. -/
def textElement (name content : String) : String :=
  openTag name [] ++ text content ++ closeTag name

end Xml

namespace PersistenceUnit

/-- The place of the descriptor below its directory. -/
def descriptorPath : String :=
  "META-INF/persistence.xml"

/-- The attributes of the root element. -/
def rootAttributes : List (String × String) :=
  [("version", "2.2"), ("xmlns", "http://xmlns.jcp.org/xml/ns/persistence"),
    ("xmlns:xsi", "http://www.w3.org/2001/XMLSchema-instance"),
    ("xsi:schemaLocation", "http://xmlns.jcp.org/xml/ns/persistence "
      ++ "http://xmlns.jcp.org/xml/ns/persistence/persistence_2_2.xsd")]

/-- The lines of the descriptor of a unit with the given entities. -/
def lines (name : String) (entities : List String) : List String :=
  ["<?xml version=\"1.0\" encoding=\"UTF-8\"?>",
    Xml.openTag "persistence" rootAttributes,
    "  " ++ Xml.openTag "persistence-unit" [("name", name), ("transaction-type", "RESOURCE_LOCAL")]]
    ++ entities.map (fun entity => "    " ++ Xml.textElement "class" entity)
    ++ ["    " ++ Xml.textElement "exclude-unlisted-classes" "true",
      "  " ++ Xml.closeTag "persistence-unit",
      Xml.closeTag "persistence"]

/-- The descriptor of a unit with the given entities. -/
def document (name : String) (entities : List String) : String :=
  Text.unlines (lines name entities)

end PersistenceUnit

/-- The descriptor of a unit whose entities are those of the catalogue, in the order of their registration. -/
def Catalogue.persistenceUnit (catalogue : Catalogue) (name : String) : String :=
  PersistenceUnit.document name ((catalogue.ofKind .entity).map (·.qualifiedName))

end EntityForge
