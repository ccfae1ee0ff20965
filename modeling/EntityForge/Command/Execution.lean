import EntityForge.Command.Arguments
import EntityForge.Generation.PersistenceUnit
import EntityForge.Generation.Run
import EntityForge.Metamodel.Reader

/-!
# Executing the command

The command reads its options and the metamodel, generates the classes, and writes or prints the sources and the
descriptor of the persistence unit.
-/

namespace EntityForge.Command

variable {m : Type → Type} [Monad m]

/-- What is left to say and to return after the command. -/
structure Outcome where
  exitCode : Nat
  /-- The error that ended the command, or the first failure of the run. -/
  error : Option GenerationError
  /-- A line about the run. -/
  summary : Option String
  deriving DecidableEq

namespace Outcome

/-- The outcome of a command that went well without a run. -/
def plain : Outcome :=
  { exitCode := 0, error := none, summary := none }

/-- The outcome of wrong arguments. -/
def wrongUsage : Outcome :=
  { exitCode := 2, error := none, summary := none }

/-- The outcome of a run that an error stopped. -/
def stopped (error : GenerationError) : Outcome :=
  { exitCode := 1, error := some error, summary := none }

/-- The outcome of a run that came to its end. -/
def ended (report : Report) (summary : Option String) : Outcome :=
  match report.failures with
  | [] => { exitCode := 0, error := none, summary }
  | failure :: _ => { exitCode := 1, error := some failure.error, summary }

end Outcome

/-- Options with what the arguments say put over them. -/
def Arguments.override (arguments : Arguments) (options : GenerationOptions) : GenerationOptions :=
  { generateDefaultValues := options.generateDefaultValues || arguments.generateDefaultValues
    javaSeSupport := options.javaSeSupport || arguments.javaSeSupport
    hashPolicy := arguments.hashPolicy.getD options.hashPolicy
    hashSeed := arguments.hashSeed <|> options.hashSeed }

/-- The options in a file. -/
def readOptions [FileSystem m] (path : String) : ExceptT GenerationError m GenerationOptions := do
  let text ← (FileSystem.readText path : m _)
  match text.bind GenerationOptions.ofText? with
  | some options => pure options
  | none => throw .unreadableOptions

/-- The options of a run. -/
def Arguments.generationOptions [FileSystem m] (arguments : Arguments) :
    ExceptT GenerationError m GenerationOptions := do
  match arguments.options with
  | some path => return arguments.override (← readOptions path)
  | none => return arguments.override .standard

/-- The metamodel in a file. -/
def readModel [FileSystem m] (path : String) : ExceptT GenerationError m Metamodel := do
  let text ← (FileSystem.readText path : m _)
  match text.bind Metamodel.ofText? with
  | some model => pure model
  | none => throw .unreadableModel

/-- Goes on only if the path leads to a directory. -/
def needDirectory [FileSystem m] (path : String) : ExceptT GenerationError m Unit := do
  unless ← (FileSystem.isDirectory path : m _) do
    throw (.missingOutput path)

/-- Writes the descriptor of a persistence unit below a directory and gives its path. -/
def writeDescriptor [FileSystem m] (root unit : String) (catalogue : Catalogue) :
    ExceptT GenerationError m String := do
  let path := Path.push root PersistenceUnit.descriptorPath
  writeAtomically path (catalogue.persistenceUnit unit)
  pure path

/-- Prints the descriptor of a persistence unit. -/
def printDescriptor [Terminal m] (root unit : String) (catalogue : Catalogue) : m Unit :=
  printFile (Path.push root PersistenceUnit.descriptorPath) (catalogue.persistenceUnit unit)

/-- Generates the classes of a metamodel to files below a directory that has to be there. -/
def generateFiles [FileSystem m] {σ : Type} [PrimeSource σ] (root : String) (model : Metamodel)
    (options : GenerationOptions) (primes : σ) : ExceptT GenerationError m Report := do
  needDirectory root
  let (report, _) ← ExceptT.mk (({ model, options, write := fileWriter root } : Generator m).run primes)
  pure report

/-- Generates the classes of a metamodel to the terminal. -/
def generatePrinted [Terminal m] {σ : Type} [PrimeSource σ] (root : String) (model : Metamodel)
    (options : GenerationOptions) (primes : σ) : ExceptT GenerationError m Report := do
  let (report, _) ← ExceptT.mk (({ model, options, write := printer root } : Generator m).run primes)
  pure report

/-- The directory of the descriptor. -/
def Arguments.descriptorRoot (arguments : Arguments) : String :=
  arguments.resources.getD arguments.output

/-- The line about a run, when it was asked for. -/
def Arguments.summary? (arguments : Arguments) (report : Report) : Option String :=
  if arguments.dryRun || arguments.verbosity = 0 then none
  else some s!"Generated {report.written.length} classes into {arguments.output}"

/-- A run as the arguments ask for it. Without a seed in the options, `entropy` is the seed. -/
def Arguments.perform [Terminal m] (arguments : Arguments) (entropy : UInt64) : ExceptT GenerationError m Outcome := do
  let options ← arguments.generationOptions
  let model ← readModel arguments.model
  let primes := options.supply entropy
  -- Only files need the directory of the sources to be there.
  let report ←
    if arguments.dryRun then generatePrinted arguments.output model options primes
    else generateFiles arguments.output model options primes
  match model.persistenceUnit with
  | none => pure ()
  | some unit =>
    if arguments.dryRun then (printDescriptor arguments.descriptorRoot unit report.catalogue : m _)
    else let _ ← writeDescriptor arguments.descriptorRoot unit report.catalogue
  pure (.ended report (arguments.summary? report))

/-- The name and version of the command. -/
def versionText : String :=
  "orm-gen 0.1.0\n"

/-- A short description of the arguments. -/
def helpText : String :=
  "Usage: orm-gen --model <FILE> [--output <DIR>] [--resources <DIR>] [--dry-run] [--options <FILE>]\n"
    ++ "    [--generate-default-values] [--java-se-support] [--hash-policy <POLICY>] [--hash-seed <SEED>]\n"
    ++ "    [--verbose] [--help] [--version]\n"

/-- Does what a request asks for. -/
def Request.perform [Terminal m] (request : Request) (entropy : UInt64) : m Outcome := do
  match request with
  | .help =>
    Terminal.print helpText
    pure .plain
  | .version =>
    Terminal.print versionText
    pure .plain
  | .run arguments =>
    match ← (arguments.perform entropy).run with
    | .ok outcome => pure outcome
    | .error error => pure (.stopped error)

/-- Executes the command with its arguments. -/
def execute [Terminal m] (arguments : List String) (entropy : UInt64) : m Outcome :=
  match request? arguments with
  | some request => request.perform entropy
  | none => pure .wrongUsage

end EntityForge.Command
