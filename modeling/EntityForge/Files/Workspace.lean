import EntityForge.Files.Tree

/-!
# A terminal in memory

A workspace is a tree of files and the text printed so far.
-/

namespace EntityForge

/-- A tree of files and what was printed beside it. -/
structure Workspace where
  tree : FileTree
  printed : String
  deriving DecidableEq

namespace Workspace

/-- An operation on the tree of a workspace. -/
def onTree {α : Type} (operation : FileTree → α × FileTree) : StateM Workspace α :=
  modifyGet fun workspace =>
    let (result, tree) := operation workspace.tree
    (result, { workspace with tree })

instance : Terminal (StateM Workspace) where
  isDirectory path := onTree fun tree => (tree.isDirectory path, tree)
  readText path := onTree fun tree => (tree.text? path, tree)
  createDirectories path := onTree (·.createDirectories path)
  writeText path text := onTree (·.writeText path text)
  rename path target := onTree (·.rename path target)
  print text := modify fun workspace => { workspace with printed := workspace.printed ++ text }

end Workspace

end EntityForge
