import EntityForge.Files.Path
import EntityForge.Files.System

/-!
# Trees of files

A `FileTree` holds directories and files of text below a working directory. It is a file system of its own: the
operations fail where one of the kind usual on disks would fail, at a file in place of a directory or the other way
round and at a name or a path that is too long. The working directory may be the root of the disk; if it is not, the
tree is only a part of the disk, and an absolute path leads out of it.
-/

namespace EntityForge

/-- A place below the working directory: the names on the way to it. -/
abbrev Place :=
  List String

/-- What can be at a place. -/
inductive Entry where
  | file (text : String)
  | directory
  deriving DecidableEq

/-- What is at the places below the working directory, each listed once. -/
structure FileTree where
  entries : List (Place × Entry)
  /-- Whether the working directory is the root of the disk, where absolute paths begin. -/
  atRoot : Bool := false
  deriving DecidableEq

namespace FileTree

/-- The working directory alone. -/
def empty : FileTree :=
  { entries := [] }

/-! ## Entries -/

/-- What is at a place, if anything. The working directory is always there. -/
def get? (tree : FileTree) (place : Place) : Option Entry :=
  if place = [] then some .directory else tree.entries.lookup place

/-- The tree with an entry in place of what was there. -/
def put (tree : FileTree) (place : Place) (entry : Entry) : FileTree :=
  { tree with entries := (place, entry) :: tree.entries.filter (·.1 != place) }

/-- The tree with nothing at a place. -/
def remove (tree : FileTree) (place : Place) : FileTree :=
  { tree with entries := tree.entries.filter (·.1 != place) }

/-- The files of the tree with their texts. -/
def files (tree : FileTree) : List (Place × String) :=
  tree.entries.filterMap fun (place, entry) =>
    match entry with
    | .file text => some (place, text)
    | .directory => none

theorem lookup_filter_ne {place other : Place} {entries : List (Place × Entry)} (h : other ≠ place) :
    (entries.filter (·.1 != place)).lookup other = entries.lookup other := by
  induction entries with
  | nil => rfl
  | cons e rest ih =>
    obtain ⟨p, x⟩ := e
    by_cases hp : p = place
    · subst hp
      have hb : (other == p) = false := by simpa using h
      simp [List.lookup_cons, hb, ih]
    · have hq : (p != place) = true := by simpa using hp
      simp only [List.filter_cons, hq, if_true, List.lookup_cons, ih]

theorem lookup_filter_self {place : Place} {entries : List (Place × Entry)} :
    (entries.filter (·.1 != place)).lookup place = none := by
  induction entries with
  | nil => rfl
  | cons e rest ih =>
    obtain ⟨p, x⟩ := e
    by_cases hp : p = place
    · simp [hp, ih]
    · have hb : (place == p) = false := by simpa using fun h : place = p => hp h.symm
      have hq : (p != place) = true := by simpa using hp
      simp only [List.filter_cons, hq, if_true, List.lookup_cons, hb, ih]

/-- What was put at a place is there. -/
theorem get?_put_self {tree : FileTree} {place : Place} {entry : Entry} (h : place ≠ []) :
    (tree.put place entry).get? place = some entry := by
  simp [get?, put, h]

/-- Putting an entry changes no other place. -/
theorem get?_put_of_ne {tree : FileTree} {place other : Place} {entry : Entry} (h : other ≠ place) :
    (tree.put place entry).get? other = tree.get? other := by
  have hb : (other == place) = false := by simpa using h
  simp only [get?, put, List.lookup_cons, hb, lookup_filter_ne h]

/-- What was removed is gone. -/
theorem get?_remove_self {tree : FileTree} {place : Place} (h : place ≠ []) :
    (tree.remove place).get? place = none := by
  simp [get?, remove, h, lookup_filter_self]

/-- Removing an entry changes no other place. -/
theorem get?_remove_of_ne {tree : FileTree} {place other : Place} (h : other ≠ place) :
    (tree.remove place).get? other = tree.get? other := by
  simp only [get?, remove, lookup_filter_ne h]

/-! ## Following paths -/

/-- The greatest number of bytes in a name. -/
def nameLimit : Nat :=
  255

/-- The greatest number of bytes in a path. -/
def pathLimit : Nat :=
  4095

/-- Whether an entry may bear a name. -/
def isName (name : String) : Bool :=
  name.utf8ByteSize ≤ nameLimit && !name.toList.contains '\x00'

/-- Whether a path can be followed at all. -/
def isPath (path : String) : Bool :=
  path ≠ "" && path.utf8ByteSize ≤ pathLimit

/-- Whether a path can be followed from the working directory within the tree. -/
def reaches (tree : FileTree) (path : String) : Bool :=
  isPath path && (tree.atRoot || !Path.isAbsolute path)

/-- The place that the parts of a path lead to from a directory. Everything on the way has to be a directory, the
last place need not hold anything. -/
def follow? (tree : FileTree) (here : Place) : List String → Option Place
  | [] => some here
  | part :: rest =>
    -- Nothing lies below a file, not even the file itself under the part `.`.
    if tree.get? here ≠ some .directory then none
    else if part = "" ∨ part = "." then tree.follow? here rest
    else if part = ".." then if here = [] then none else tree.follow? here.dropLast rest
    else if isName part then tree.follow? (here ++ [part]) rest
    else none

/-- The place that a path leads to. In front of a leading slash stands an empty part, so a path that begins at the root
is followed as a relative one is from there. -/
def place? (tree : FileTree) (path : String) : Option Place :=
  if tree.reaches path then tree.follow? [] (Path.parts path) else none

/-- The tree with the directories on the way from a directory made, and whether all of them are there now. What was
made before a failure stays. -/
def makeDirectories (tree : FileTree) (here : Place) : List String → Bool × FileTree
  | [] => (true, tree)
  | part :: rest =>
    if part = "" ∨ part = "." then tree.makeDirectories here rest
    else if part = ".." then if here = [] then (false, tree) else tree.makeDirectories here.dropLast rest
    else if !isName part then (false, tree)
    else
      match tree.get? (here ++ [part]) with
      | some .directory => tree.makeDirectories (here ++ [part]) rest
      | some (.file _) => (false, tree)
      | none => (tree.put (here ++ [part]) .directory).makeDirectories (here ++ [part]) rest

/-! ## The file system -/

/-- Whether a path leads to a directory. -/
def isDirectory (tree : FileTree) (path : String) : Bool :=
  match tree.place? path with
  | some place => tree.get? place = some .directory
  | none => false

/-- The text of the file that a path leads to. -/
def text? (tree : FileTree) (path : String) : Option String := do
  let place ← tree.place? path
  match ← tree.get? place with
  | .file text => some text
  | .directory => none

/-- The tree with the directory of a path, and whether it is there now. A path that is too long makes none of the
directories on the way. -/
def createDirectories (tree : FileTree) (path : String) : Bool × FileTree :=
  if tree.reaches path then tree.makeDirectories [] (Path.parts path) else (false, tree)

/-- The tree with a text in the file of a path, unless the path leads nowhere or to a directory. -/
def writeText (tree : FileTree) (path text : String) : Bool × FileTree :=
  match tree.place? path with
  | none => (false, tree)
  | some place =>
    if tree.get? place = some .directory then (false, tree) else (true, tree.put place (.file text))

/-- The tree with a file moved to another path in one step, unless that is where a directory is. -/
def rename (tree : FileTree) (path target : String) : Bool × FileTree :=
  match tree.place? path, tree.place? target with
  | some source, some place =>
    -- What was at the target goes and the file comes in one step, so no reader finds the target missing.
    match tree.get? source with
    | some (.file text) =>
      if tree.get? place = some .directory then (false, tree)
      else (true, (tree.remove source).put place (.file text))
    | _ => (false, tree)
  | _, _ => (false, tree)

instance : FileSystem (StateM FileTree) where
  isDirectory path := do return (← get).isDirectory path
  readText path := do return (← get).text? path
  createDirectories path := modifyGet (·.createDirectories path)
  writeText path text := modifyGet (·.writeText path text)
  rename path target := modifyGet (·.rename path target)

end FileTree

end EntityForge
