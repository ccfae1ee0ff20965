import EntityForge.Text.Split

/-!
# Paths

A path is a text whose parts are separated by slashes. One that begins with a slash is absolute and means the same
from everywhere. Nothing is normalized: a path is written as it was put together.
-/

namespace EntityForge.Path

/-- Whether a path begins at the root. -/
def isAbsolute (path : String) : Bool :=
  path.toList.head? = some '/'

/-- The path of `path` seen from `base`: with one slash between the two, unless `base` is empty or ends in one. An
absolute path stays what it is. -/
def push (base path : String) : String :=
  if isAbsolute path then path
  else if base = "" ∨ base.toList.getLast? = some '/' then base ++ path
  else base ++ "/" ++ path

/-- The parts of a path, those between two slashes in a row being empty. -/
def partChars : List Char → List (List Char)
  | [] => [[]]
  | c :: rest =>
    match partChars rest with
    | [] => [[c]]
    | part :: parts => if c = '/' then [] :: part :: parts else (c :: part) :: parts

/-- The parts of a path, those between two slashes in a row being empty. -/
def parts (path : String) : List String :=
  (partChars path.toList).map String.ofList

/-- The characters of a path, read from its end, without the slashes and the parts `.` that they begin with. -/
def dropIdle : List Char → List Char
  | '/' :: rest => dropIdle rest
  | '.' :: '/' :: rest => dropIdle rest
  | rest => rest

/-- The last part of a path and the path in front of it. Slashes and parts `.` behind the last part do not count. -/
def splitLast (path : String) : List Char × List Char :=
  let body := dropIdle path.toList.reverse
  ((body.dropWhile (· != '/')).reverse, (body.takeWhile (· != '/')).reverse)

/-- The path of the directory that holds the last part, unless it is empty. -/
def parent? (path : String) : Option String :=
  let (front, name) := splitLast path
  let directory := (dropIdle front.reverse).reverse
  if name = [] then none
  else if directory ≠ [] then some (String.ofList directory)
  else if isAbsolute path then some "/"
  else none

/-- The path with the extension of its last part replaced, or added when it has none. The first dot of a part opens no
extension, and a path that ends in no name stays what it is. -/
def withExtension (extension path : String) : String :=
  let (front, name) := splitLast path
  if name = [] ∨ name = ['.'] ∨ name = ['.', '.'] then path
  else
    let stem := match Text.beforeLastChars? '.' name with
      | none | some [] => name
      | some stem => stem
    String.ofList (front ++ stem) ++ "." ++ extension

/-- A slash ends an empty part. -/
theorem partChars_slash (cs : List Char) : partChars ('/' :: cs) = [] :: partChars cs := by
  have hsome : partChars cs ≠ [] := by
    cases cs with
    | nil => simp [partChars]
    | cons c rest =>
      rw [partChars]
      split
      · simp
      · split <;> simp
  obtain ⟨part, rest, hparts⟩ := List.exists_cons_of_ne_nil hsome
  simp [partChars, hparts]

/-- An absolute path takes the place of what it is pushed onto. -/
theorem push_of_isAbsolute {base path : String} (h : isAbsolute path = true) : push base path = path := by
  simp [push, h]

end EntityForge.Path
