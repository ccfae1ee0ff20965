import EntityForge.Command.Execution

/-!
# The program

The command on the files of the disk.
-/

namespace EntityForge

/-- Whether an action ends without an error. -/
def succeeds (action : IO Unit) : IO Bool := do
  try
    action
    pure true
  catch _ =>
    pure false

/-- The file system of the disk, with the standard output to print to. -/
instance : Terminal IO where
  isDirectory path := do ((← IO.currentDir) / path).isDir
  readText path := do
    try
      pure (some (← IO.FS.readFile path))
    catch _ =>
      pure none
  createDirectories path := succeeds (IO.FS.createDirAll path)
  writeText path text := succeeds (IO.FS.writeFile path text)
  rename path target := succeeds (IO.FS.rename path target)
  print text := IO.print text

end EntityForge

/-- Executes the command, says on the standard error what is left to say, and returns its exit code. -/
def main (arguments : List String) : IO UInt32 := do
  let entropy ← IO.rand 0 (UInt64.size - 1)
  let outcome ← EntityForge.Command.execute arguments (UInt64.ofNat entropy)
  if let some summary := outcome.summary then
    IO.eprintln summary
  if let some error := outcome.error then
    IO.eprintln s!"Error: {error.message}"
  pure (UInt32.ofNat outcome.exitCode)
