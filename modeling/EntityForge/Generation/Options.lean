import EntityForge.Json.Reader
import EntityForge.Json.Record
import EntityForge.Primes.Supply

/-!
# Options of a run
-/

namespace EntityForge

/-- How the primes of hash codes are chosen. -/
inductive HashPolicy where
  /-- Each class draws a pair of its own. -/
  | perClass
  /-- All classes of a run use the first pair drawn. -/
  | sharedPerRun
  /-- All classes use the standard pair. -/
  | fixed
  deriving DecidableEq

instance : Spelled HashPolicy where
  values := [.perClass, .sharedPerRun, .fixed]
  spelling
    | .perClass => "per_class"
    | .sharedPerRun => "shared_per_run"
    | .fixed => "fixed"
  find_spelling := by intro a; cases a <;> decide

/-- The options of a run. -/
structure GenerationOptions where
  /-- Writes arguments of annotations even when they equal their defaults. -/
  generateDefaultValues : Bool
  /-- Lets fields report their changes where the attribute asks for it. -/
  javaSeSupport : Bool
  hashPolicy : HashPolicy
  /-- The seed from which primes are drawn. -/
  hashSeed : Option UInt64
  deriving DecidableEq

namespace GenerationOptions

/-- The options where nothing is set. -/
def standard : GenerationOptions :=
  { generateDefaultValues := false, javaSeSupport := false, hashPolicy := .perClass, hashSeed := none }

open Json in
/-- The options that a value describes. Every field may be left out. -/
def read (v : Json) : Option GenerationOptions := do
  let r ← v.record? ["generate_default_values", "java_se_support", "hash_policy", "hash_seed"]
  pure {
    generateDefaultValues := ← r.flag "generate_default_values"
    javaSeSupport := ← r.flag "java_se_support"
    hashPolicy := ← r.optional "hash_policy" .perClass word?
    hashSeed := ← r.nullable "hash_seed" uint64? }

/-- The options that a text describes. -/
def ofText? (s : String) : Option GenerationOptions := do
  let v ← Json.ofText? s
  read v

/-- The supply of primes of a run. Without a seed in the options, `entropy` is the seed. -/
def supply (options : GenerationOptions) (entropy : UInt64) : PrimeSupply :=
  let seeded := PrimeSupply.seeded (options.hashSeed.getD entropy) 0
  match options.hashPolicy with
  | .perClass => seeded
  | .sharedPerRun => .shared none seeded
  | .fixed => .fixed .standard

end GenerationOptions

end EntityForge
