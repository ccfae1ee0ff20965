import EntityForge.Generation.Error
import EntityForge.Java.Identifier

/-!
# Constructors

A constructor takes the inherited parameters first and passes them on to the superclass; the others it assigns
to the fields of their names.
-/

namespace EntityForge

open Java

/-- A parameter of a constructor. -/
structure Parameter where
  name : String
  type : String
  deriving DecidableEq

/-- A constructor: its inherited parameters and those it assigns itself. -/
structure Signature where
  access : Access
  className : String
  inherited : List Parameter
  own : List Parameter
  deriving DecidableEq

namespace Signature

/-- All parameters, the inherited ones first. -/
def parameters (s : Signature) : List Parameter :=
  s.inherited ++ s.own

/-- What is wrong with parameter names: each has to be an identifier and is taken once. -/
def nameFault? (seen : List String) : List Parameter → Option Fault
  | [] => none
  | p :: rest =>
    if !isIdentifier p.name then some (.parameterName p.name)
    else if seen.contains p.name then some (.repeatedParameter p.name)
    else nameFault? (p.name :: seen) rest

/-- The lines of the constructor. -/
def lines (s : Signature) : List String :=
  let declared := s.parameters.map fun p => p.type ++ " " ++ p.name
  [s.access.modifier ++ s.className ++ "(" ++ ", ".intercalate declared ++ ") \x7b"]
    ++ (if s.inherited.isEmpty then []
      else ["    super(" ++ ", ".intercalate (s.inherited.map (·.name)) ++ ");"])
    ++ s.own.map (fun p => "    this." ++ p.name ++ " = " ++ p.name ++ ";") ++ ["\x7d"]

/-- What is wrong with the constructor. -/
def fault? (s : Signature) : Option Fault :=
  nameFault? [] s.parameters

/-- The constructor as it is written. It needs no import. -/
def text (s : Signature) : String :=
  "\n".intercalate s.lines

end Signature

end EntityForge
