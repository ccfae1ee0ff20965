import EntityForge.Files.Path
import EntityForge.Files.System
import EntityForge.Generation.Error

/-!
# Writing a file in one step

A text is written to a neighbour of its file first, which then takes the place of the file. So the file never
holds a part of the text.
-/

namespace EntityForge

variable {m : Type → Type} [Monad m] [FileSystem m]

/-- Goes on only if an operation on a path succeeded. -/
def needSuccess (path : String) (operation : m Bool) : ExceptT GenerationError m Unit := do
  unless ← operation do
    throw (.unwritable path)

/-- Makes the file of a path hold a text, with the directories above it. The neighbour bears the name of the file
with the extension `tmp`. -/
def writeAtomically (path text : String) : ExceptT GenerationError m Unit := do
  let neighbour := Path.withExtension "tmp" path
  match Path.parent? path with
  | some parent => needSuccess parent (FileSystem.createDirectories parent)
  | none => pure ()
  -- When the last step fails the neighbour stays behind.
  needSuccess neighbour (FileSystem.writeText neighbour text)
  needSuccess path (FileSystem.rename neighbour path)

end EntityForge
