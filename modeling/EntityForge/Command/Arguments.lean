import EntityForge.Generation.Options

/-!
# Arguments of the command

The command takes options by their long names, after two dashes, or by their letters, after one dash. Letters of
options without value may stand together. A value follows its option as the next argument or after an equals sign; a
letter may also have it attached. No option with a value and no switch may be given twice.
-/

namespace EntityForge.Command

/-- What the command is to do in a run. -/
structure Arguments where
  /-- The file of the metamodel. -/
  model : String
  /-- The directory of the sources. -/
  output : String
  /-- The directory of the descriptor, when it is not that of the sources. -/
  resources : Option String
  /-- Whether everything is printed and nothing written. -/
  dryRun : Bool
  /-- The file of the options. -/
  options : Option String
  generateDefaultValues : Bool
  javaSeSupport : Bool
  hashPolicy : Option HashPolicy
  hashSeed : Option UInt64
  /-- How often more messages were asked for. -/
  verbosity : Nat
  deriving DecidableEq

/-- What the command is asked for. -/
inductive Request where
  | run (arguments : Arguments)
  | help
  | version
  deriving DecidableEq

/-! ## Options -/

/-- Options that take a value. -/
inductive Setting where
  | model
  | output
  | resources
  | options
  | hashPolicy
  | hashSeed
  deriving DecidableEq

/-- Options that take no value. -/
inductive Switch where
  | dryRun
  | generateDefaultValues
  | javaSeSupport
  | verbose
  | help
  | version
  deriving DecidableEq

/-- An option, with or without value. -/
inductive Flag where
  | setting (setting : Setting)
  | switch (switch : Switch)
  deriving DecidableEq

namespace Flag

/-- The option of a long name. -/
def ofName? : String → Option Flag
  | "model" => some (.setting .model)
  | "output" => some (.setting .output)
  | "resources" => some (.setting .resources)
  | "options" => some (.setting .options)
  | "hash-policy" => some (.setting .hashPolicy)
  | "hash-seed" => some (.setting .hashSeed)
  | "dry-run" => some (.switch .dryRun)
  | "generate-default-values" => some (.switch .generateDefaultValues)
  | "java-se-support" => some (.switch .javaSeSupport)
  | "verbose" => some (.switch .verbose)
  | "help" => some (.switch .help)
  | "version" => some (.switch .version)
  | _ => none

/-- The option of a letter. -/
def ofLetter? : Char → Option Flag
  | 'm' => some (.setting .model)
  | 'o' => some (.setting .output)
  | 'v' => some (.switch .verbose)
  | 'h' => some (.switch .help)
  | 'V' => some (.switch .version)
  | _ => none

end Flag

/-! ## Values -/

/-- The path that a value names; it may not be empty. -/
def path? (value : String) : Option String :=
  if value = "" then none else some value

/-- The number that a value writes: digits with a plus sign or none before them, below 2 to the 64. -/
def seed? (value : String) : Option UInt64 :=
  let digits :=
    match value.toList with
    | '+' :: rest => rest
    | digits => digits
  let number := Nat.ofDigitChars 10 digits 0
  if digits ≠ [] ∧ digits.all Char.isDigit ∧ number < UInt64.size then some (UInt64.ofNat number) else none

/-! ## What has been given -/

/-- The options given so far. -/
structure Given where
  model : Option String
  output : Option String
  resources : Option String
  options : Option String
  hashPolicy : Option HashPolicy
  hashSeed : Option UInt64
  dryRun : Bool
  generateDefaultValues : Bool
  javaSeSupport : Bool
  verbosity : Nat

namespace Given

/-- No options. -/
def nothing : Given :=
  { model := none, output := none, resources := none, options := none, hashPolicy := none, hashSeed := none,
    dryRun := false, generateDefaultValues := false, javaSeSupport := false, verbosity := 0 }

/-- A value that is given for the first time. -/
def once? {α : Type} (before : Option α) (value : Option α) : Option (Option α) :=
  if before.isSome then none else value.map some

/-- A switch that is given for the first time. -/
def switchOn? (before : Bool) : Option Bool :=
  if before then none else some true

/-- With one more option and its value. -/
def set? (given : Given) (setting : Setting) (value : String) : Option Given :=
  match setting with
  | .model => do pure { given with model := ← once? given.model (path? value) }
  | .output => do pure { given with output := ← once? given.output (path? value) }
  | .resources => do pure { given with resources := ← once? given.resources (path? value) }
  | .options => do pure { given with options := ← once? given.options (path? value) }
  | .hashPolicy => do pure { given with hashPolicy := ← once? given.hashPolicy (Spelled.ofWord? value) }
  | .hashSeed => do pure { given with hashSeed := ← once? given.hashSeed (seed? value) }

/-- The directory of the sources when none is given. -/
def standardOutput : String :=
  "src/main/java"

/-- The arguments of a run; the file of the metamodel has to be given. -/
def arguments? (given : Given) : Option Arguments := do
  pure {
    model := ← given.model
    output := given.output.getD standardOutput
    resources := given.resources
    dryRun := given.dryRun
    options := given.options
    generateDefaultValues := given.generateDefaultValues
    javaSeSupport := given.javaSeSupport
    hashPolicy := given.hashPolicy
    hashSeed := given.hashSeed
    verbosity := given.verbosity }

end Given

/-! ## Reading the arguments -/

/-- What an argument leads to. -/
inductive Progress where
  /-- The next argument. -/
  | next (given : Given)
  /-- The value of an option, which is the next argument. -/
  | awaitValue (given : Given) (setting : Setting)
  /-- The end: nothing else is looked at. -/
  | done (request : Request)

namespace Progress

/-- After a switch. -/
def ofSwitch? (given : Given) : Switch → Option Progress
  | .dryRun => do pure (.next { given with dryRun := ← Given.switchOn? given.dryRun })
  | .generateDefaultValues => do
    pure (.next { given with generateDefaultValues := ← Given.switchOn? given.generateDefaultValues })
  | .javaSeSupport => do pure (.next { given with javaSeSupport := ← Given.switchOn? given.javaSeSupport })
  | .verbose => some (.next { given with verbosity := given.verbosity + 1 })
  | .help => some (.done .help)
  | .version => some (.done .version)

/-- After an option and the value attached to it. -/
def ofAttached? (given : Given) (setting : Setting) (value : String) : Option Progress :=
  (given.set? setting value).map .next

/-- After a long name, with the value after its equals sign if it has one. -/
def ofName? (given : Given) (name : String) (value : Option String) : Option Progress := do
  match ← Flag.ofName? name, value with
  | .setting setting, some value => ofAttached? given setting value
  | .setting setting, none => some (.awaitValue given setting)
  | .switch switch, none => ofSwitch? given switch
  | .switch _, some _ => none

/-- After letters that stand together. What follows the letter of an option with a value is that value. -/
def ofLetters? (given : Given) : List Char → Option Progress
  | [] => some (.next given)
  | letter :: rest => do
    match ← Flag.ofLetter? letter with
    | .setting setting =>
      match rest with
      | [] => some (.awaitValue given setting)
      | '=' :: value => ofAttached? given setting (String.ofList value)
      | value => ofAttached? given setting (String.ofList value)
    | .switch switch =>
      -- A request for help or the version is granted before the letters after it are looked at.
      match ← ofSwitch? given switch with
      | .next given => ofLetters? given rest
      | stop => some stop

/-- The parts of a long option: its name and the value after the first equals sign. -/
def splitName (option : List Char) : String × Option String :=
  let name := option.takeWhile (· != '=')
  match option.dropWhile (· != '=') with
  | [] => (String.ofList name, none)
  | _ :: value => (String.ofList name, some (String.ofList value))

/-- After an argument where an option is expected. -/
def ofArgument? (given : Given) (argument : String) : Option Progress :=
  match argument.toList with
  | '-' :: '-' :: option =>
    let (name, value) := splitName option
    ofName? given name value
  | '-' :: letter :: letters => ofLetters? given (letter :: letters)
  | _ => none

end Progress

/-- Whether an argument can be the value of the option before it: it is no option itself. A dash alone is none. -/
def isValue (argument : String) : Bool :=
  match argument.toList with
  | '-' :: _ :: _ => false
  | _ => true

/-- The request that further arguments complete. Two dashes alone end the options, and nothing may follow them. -/
def requestFrom? (given : Given) : List String → Option Request
  | [] => given.arguments?.map .run
  | "--" :: rest => if rest.isEmpty then given.arguments?.map .run else none
  | argument :: rest => do
    match ← Progress.ofArgument? given argument with
    | .next given => requestFrom? given rest
    -- What follows a request for help or the version may be wrong.
    | .done request => some request
    | .awaitValue given setting =>
      match rest with
      | [] => none
      | value :: rest =>
        if isValue value then do
          let given ← given.set? setting value
          requestFrom? given rest
        else none

/-- The request that arguments make, if they are right. -/
def request? (arguments : List String) : Option Request :=
  requestFrom? .nothing arguments

end EntityForge.Command
