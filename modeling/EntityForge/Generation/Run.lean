import EntityForge.Generation.Catalogue
import EntityForge.Generation.Order
import EntityForge.Generation.Writing
import EntityForge.JavaClass.Assembly

/-!
# A run

A run generates the classes of a metamodel stage by stage. A class that cannot be generated or written ends its
stage, and the run goes on with the next one.
-/

namespace EntityForge

/-- A class that was not generated or not written. -/
structure Failure where
  className : String
  kind : ClassKind
  stage : Stage
  error : GenerationError
  deriving DecidableEq

/-- The failure of a class. -/
def Failure.ofClass (c : ClassModel) (stage : Stage) (error : GenerationError) : Failure :=
  { className := c.name, kind := c.kind, stage, error }

/-- What a run did. -/
structure Report where
  catalogue : Catalogue
  /-- The written classes, in the order of writing. -/
  written : List WrittenUnit
  /-- The failures, at most one in each stage. -/
  failures : List Failure
  deriving DecidableEq

namespace Report

/-- The report of a run that has done nothing yet. -/
def empty : Report :=
  { catalogue := .empty, written := [], failures := [] }

/-- The report with one more generated class. -/
def register (report : Report) (c : JavaClass) : Report :=
  { report with catalogue := report.catalogue.register c }

/-- The report with one more written class. -/
def wrote (report : Report) (unit : WrittenUnit) : Report :=
  { report with written := report.written ++ [unit] }

/-- The report with one more failure. -/
def failed (report : Report) (failure : Failure) : Report :=
  { report with failures := report.failures ++ [failure] }

/-- Whether every class was generated and written. -/
def isSuccess (report : Report) : Bool :=
  report.failures.isEmpty

end Report

/-- What generates the classes of a metamodel, and where it writes them to. -/
structure Generator (m : Type → Type) where
  model : Metamodel
  options : GenerationOptions
  write : Writer m

namespace Generator

variable {m : Type → Type} [Monad m] {σ : Type} [PrimeSource σ]

/-- Generates the classes of a stage up to the first failure. A class is registered before it is written. -/
def runClasses (generator : Generator m) (stage : Stage) (report : Report) (primes : σ) :
    List ClassModel → m (Report × σ)
  | [] => pure (report, primes)
  | c :: rest =>
    match assemble generator.model generator.options c primes with
    | (.error error, primes) => pure (report.failed (.ofClass c stage error), primes)
    | (.ok generated, primes) => do
      -- A class that cannot be written stays registered.
      let report := report.register generated
      match ← generator.write generated with
      | .error error => pure (report.failed (.ofClass c stage error), primes)
      | .ok unit => generator.runClasses stage (report.wrote unit) primes rest

/-- Generates the classes of planned stages. -/
def runStages (generator : Generator m) (report : Report) (primes : σ) : List StagePlan → m (Report × σ)
  | [] => pure (report, primes)
  | plan :: rest => do
    let (report, primes) ← generator.runClasses plan.stage report primes plan.classes
    generator.runStages report primes rest

/-- Generates the classes of the metamodel, or nothing at all when its hierarchy allows no plan. -/
def run (generator : Generator m) (primes : σ) : m (Except GenerationError (Report × σ)) :=
  match generator.model.plan with
  | .error error => pure (.error error)
  | .ok plans => do
    let outcome ← generator.runStages .empty primes plans
    pure (.ok outcome)

end Generator

/-- A run that keeps its sources in memory. -/
def runInMemory {σ : Type} [PrimeSource σ] (model : Metamodel) (options : GenerationOptions) (primes : σ) :
    Except GenerationError (Report × σ) × Sources :=
  (({ model, options, write := Sources.writer } : Generator (StateM Sources)).run primes).run .empty

end EntityForge
