import EntityForge.Generation.Stage
import EntityForge.Metamodel.Hierarchy

/-!
# What can go wrong

Faults are what makes a class impossible to generate; errors are all that can stop a class or a run. Each has
its text in one place.
-/

namespace EntityForge

/-- What is wrong with an attribute. -/
inductive AttributeFault where
  /-- A decimal bound is no decimal number. -/
  | notDecimal (name value : String)
  | sizeInverted (min max : Nat)
  /-- A bound of a size is too large. -/
  | sizeTooLarge (bound : String)
  | digitsIncomplete
  /-- A many-to-one relationship is said to be owned by the other side. -/
  | mappedManyToOne
  /-- A relationship to many is said to be optional or not. -/
  | optionalToMany
  /-- Column settings on an attribute that has no column. -/
  | columnSettings
  | keyConstraints (type : String)
  | valueConstraints (type : String)
  deriving DecidableEq

/-- The text of an attribute's fault. -/
def AttributeFault.message : AttributeFault → String
  | .notDecimal name value => s!"@{name} value '{value}' is not a decimal number"
  | .sizeInverted min max => s!"@Size min {min} exceeds max {max}"
  | .sizeTooLarge bound => s!"@Size {bound} does not fit in an int"
  | .digitsIncomplete => "@Digits needs both integer and fraction"
  | .mappedManyToOne => "@ManyToOne is always the owning side and cannot be mappedBy"
  | .optionalToMany => "to-many relationships have no 'optional' setting"
  | .columnSettings => "column settings apply only to basic, id, version and element-collection attributes"
  | .keyConstraints type => s!"key constraints need a map type, found '{type}'"
  | .valueConstraints type => s!"value constraints need a parameterized type, found '{type}'"

/-- What is wrong with a class. -/
inductive Fault where
  | className (name : String)
  | attributeName (name : String)
  | repeatedAttribute (name : String)
  /-- An attribute that a superclass declares already. -/
  | inheritedAttribute (name ancestor : String)
  /-- Something about one attribute. -/
  | ofAttribute (name : String) (fault : AttributeFault)
  /-- A name that leads nowhere. -/
  | lookup (error : LookupError)
  | memberName (name : String)
  | repeatedMember (name : String)
  | parameterName (name : String)
  | repeatedParameter (name : String)
  /-- Two constructors whose parameters have the same types. -/
  | sameParameters (names : List String)
  | unknownInOrder (name : String)
  | repeatedInOrder (name : String)
  deriving DecidableEq

/-- The text of a class's fault. -/
def Fault.message : Fault → String
  | .className name => s!"'{name}' is not a valid class name"
  | .attributeName name => s!"'{name}' is not a valid attribute name"
  | .repeatedAttribute name => s!"attribute '{name}' is declared twice"
  | .inheritedAttribute name ancestor => s!"attribute '{name}' is already declared by superclass '{ancestor}'"
  | .ofAttribute name fault => s!"attribute '{name}': " ++ fault.message
  | .lookup error => error.message
  | .memberName name => s!"'{name}' is not a valid member name"
  | .repeatedMember name => s!"member '{name}' is listed twice"
  | .parameterName name => s!"constructor parameter '{name}' is not a valid identifier"
  | .repeatedParameter name => s!"constructor assigns '{name}' more than once"
  | .sameParameters names => "two constructors take the same parameters (" ++ ", ".intercalate names ++ ")"
  | .unknownInOrder name => s!"property order names unknown attribute '{name}'"
  | .repeatedInOrder name => s!"property order lists '{name}' twice"

/-- What stops a class or a run. -/
inductive GenerationError where
  /-- A class cannot be generated. -/
  | invalidInput (className : String) (fault : Fault)
  /-- A superclass is missing. -/
  | unresolved (error : LookupError)
  /-- The superclasses of some classes of a stage come round. -/
  | cyclicHierarchy (stage : Stage) (classes : List String)
  /-- The metamodel cannot be read. -/
  | unreadableModel
  /-- The options cannot be read. -/
  | unreadableOptions
  /-- A file cannot be written. -/
  | unwritable (path : String)
  /-- The directory to write to does not exist. -/
  | missingOutput (path : String)
  deriving DecidableEq

/-- The text of an error. -/
def GenerationError.message : GenerationError → String
  | .invalidInput className fault => s!"Invalid input for class '{className}': " ++ fault.message
  | .unresolved error => "Unresolved reference: " ++ error.message
  | .cyclicHierarchy stage classes =>
    "Cyclic class hierarchy in " ++ Spelled.spelling stage ++ " stage involving: " ++ ", ".intercalate classes
  | .unreadableModel => "Failed to parse metamodel"
  | .unreadableOptions => "Invalid configuration"
  | .unwritable path => s!"Failed to write output file '{path}'"
  | .missingOutput path => s!"Output directory does not exist: {path}"

end EntityForge
