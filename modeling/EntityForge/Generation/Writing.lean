import EntityForge.Files.Atomic
import EntityForge.JavaClass.Source
import EntityForge.Text.Sorted

/-!
# Writing generated classes

A writer takes a class and keeps its source: in memory under its full name, in a file below a directory, or on the
terminal.
-/

namespace EntityForge

/-- What is known of a class that was written. -/
structure WrittenUnit where
  /-- The name of the class in full. -/
  className : String
  /-- The file that was written, if any. -/
  path : Option String
  /-- The number of bytes of the source. -/
  bytes : Nat
  deriving DecidableEq

namespace WrittenUnit

/-- The unit of a class whose source went to a path, or to no file. -/
def ofClass (c : JavaClass) (path : Option String) : WrittenUnit :=
  { className := c.qualifiedName, path, bytes := c.source.utf8ByteSize }

end WrittenUnit

/-- Something that keeps the source of a class, or fails to. -/
abbrev Writer (m : Type → Type) :=
  JavaClass → m (Except GenerationError WrittenUnit)

/-! ## Sources in memory -/

/-- Sources in memory, in ascending order of the full names of their classes. -/
structure Sources where
  table : List (String × String)
  deriving DecidableEq

namespace Sources

/-- No sources. -/
def empty : Sources :=
  { table := [] }

/-- The source of the class of a full name. -/
def source? (sources : Sources) (name : String) : Option String :=
  sources.table.lookup name

/-- The full names of the classes. -/
def names (sources : Sources) : List String :=
  sources.table.map (·.1)

/-- The number of sources. -/
def size (sources : Sources) : Nat :=
  sources.table.length

/-- The sources with that of a class, in place of one under the same name. -/
def put (sources : Sources) (c : JavaClass) : Sources :=
  { table := Text.putSorted c.qualifiedName c.source sources.table }

/-- Keeps sources in memory. This never fails. -/
def writer : Writer (StateM Sources) := fun c => do
  modify (·.put c)
  pure (.ok (.ofClass c none))

/-- The source put last under a name is the one found. -/
theorem source?_put {sources : Sources} {c : JavaClass} {name : String} :
    (sources.put c).source? name = if name = c.qualifiedName then some c.source else sources.source? name := by
  split
  · next h => subst h; exact Text.lookup_putSorted_self
  · next h => exact Text.lookup_putSorted_of_ne h

end Sources

/-! ## Sources in files -/

/-- The path of a package below a directory of sources. -/
def packagePath (package : String) : String :=
  package.map fun c => if c = '.' then '/' else c

/-- The file of a class of a package, below a directory of sources. -/
def sourcePath (root package name : String) : String :=
  let directory := if package = "" then root else Path.push root (packagePath package)
  Path.push directory (name ++ ".java")

/-- The file of the source of a class. -/
def JavaClass.sourcePath (c : JavaClass) (root : String) : String :=
  EntityForge.sourcePath root c.package c.name

variable {m : Type → Type} [Monad m]

/-- Writes sources to files below a directory. -/
def fileWriter [FileSystem m] (root : String) : Writer m := fun c => do
  let path := c.sourcePath root
  match ← (writeAtomically path c.source).run with
  | .ok () => pure (.ok (.ofClass c path))
  | .error e => pure (.error e)

/-- Prints a text under the path that it would be written to. -/
def printFile [Terminal m] (path text : String) : m Unit :=
  Terminal.print ("=== " ++ path ++ " ===\n" ++ text ++ "\n")

/-- Prints sources and writes no file. -/
def printer [Terminal m] (root : String) : Writer m := fun c => do
  printFile (c.sourcePath root) c.source
  pure (.ok (.ofClass c none))

end EntityForge
