/-!
# File systems

What writing files asks of a file system. Every operation says whether it succeeded.
-/

namespace EntityForge

/-- The operations on files, named by their paths. -/
class FileSystem (m : Type → Type) where
  /-- Whether the path names a directory. -/
  isDirectory (path : String) : m Bool
  /-- The text of a file, if there is one and it can be read. -/
  readText (path : String) : m (Option String)
  /-- Makes the directory and those above it that are missing. -/
  createDirectories (path : String) : m Bool
  /-- Makes a file hold a text, in place of what it held before. -/
  writeText (path text : String) : m Bool
  /-- Gives a file another path, in place of the file that was there. -/
  rename (path target : String) : m Bool

/-- A file system with a place to print to. -/
class Terminal (m : Type → Type) extends FileSystem m where
  /-- Prints a text as it is. -/
  print (text : String) : m Unit

end EntityForge
