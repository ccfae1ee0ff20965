import EntityForge.Files.Tree

/-!
# Disks that fail

A disk is a tree of files together with the faults that its operations are going to meet. An operation that meets none
does what it does to the tree. What an operation had done before a fault stays.
-/

namespace EntityForge

/-- How an operation on a disk fails. -/
inductive DiskFault where
  /-- Nothing is done. -/
  | refused
  /-- So many steps are done: parts of a path that are walked, or characters that are written. -/
  | brokenOff (steps : Nat)
  deriving DecidableEq

namespace FileTree

/-- Makes the directories of a path, or those among its first parts, unless a fault is met. -/
def createDirectoriesUnder (fault : Option DiskFault) (tree : FileTree) (path : String) : Bool × FileTree :=
  match fault with
  | none => tree.createDirectories path
  | some .refused => (false, tree)
  | some (.brokenOff steps) =>
    if tree.reaches path then (false, (tree.makeDirectories [] ((Path.parts path).take steps)).2) else (false, tree)

/-- Writes the text of a file, or its first characters, unless a fault is met. -/
def writeTextUnder (fault : Option DiskFault) (tree : FileTree) (path text : String) : Bool × FileTree :=
  match fault with
  | none => tree.writeText path text
  | some .refused => (false, tree)
  | some (.brokenOff steps) => (false, (tree.writeText path (String.ofList (text.toList.take steps))).2)

/-- Renames a file, unless a fault is met. It is done in one step, so no fault is met on the way. -/
def renameUnder (fault : Option DiskFault) (tree : FileTree) (path target : String) : Bool × FileTree :=
  match fault with
  | none => tree.rename path target
  | some _ => (false, tree)

end FileTree

/-- A tree of files on a disk. -/
structure Disk where
  tree : FileTree
  /-- What the next operations that change the tree meet, one by one, if that is a fault. Those beyond the list meet
  none. -/
  faults : List (Option DiskFault)
  deriving DecidableEq

namespace Disk

/-- The next operation on the tree, with what it meets. -/
def operate (operation : Option DiskFault → FileTree → Bool × FileTree) : StateM Disk Bool :=
  modifyGet fun disk =>
    let (done, tree) := operation disk.faults.head?.join disk.tree
    (done, { tree, faults := disk.faults.tail })

instance : FileSystem (StateM Disk) where
  isDirectory path := do return (← get).tree.isDirectory path
  readText path := do return (← get).tree.text? path
  createDirectories path := operate fun fault tree => tree.createDirectoriesUnder fault path
  writeText path text := operate fun fault tree => tree.writeTextUnder fault path text
  rename path target := operate fun fault tree => tree.renameUnder fault path target

end Disk

end EntityForge
