import SchemaCodegen.Log.Basic

/-!
# Loggers

Loggers are known by their names and hand their records on to the nearest one of
their ancestors that exists.  Most names lead to the logger of the program in
this way, whose channel writes the record.  What leads nowhere is written plainly,
if it is important enough.
-/

namespace SchemaCodegen
namespace Log

/-- The name of the program's own logger. -/
def rootName : String :=
  "caps"

/-- The full name of the logger that a part of the program asks for. -/
def loggerName : Option String → String
  | none => rootName
  | some name => if name.isEmpty then rootName else rootName ++ "." ++ name

/--
The ancestors of a reversed name, the nearest one first: each is what stands
before a dot, but a dot right before another one that was used is passed over.
-/
def ancestorsFrom : (afterDot : Bool) → List Char → List (List Char)
  | _, [] => []
  | true, _ :: rest => ancestorsFrom false rest
  | false, character :: rest =>
      if character = '.' ∧ rest ≠ [] then rest :: ancestorsFrom true rest
      else ancestorsFrom false rest

/-- The ancestors of a name, the nearest one first. -/
def ancestors (name : String) : List String :=
  (ancestorsFrom false name.toList.reverse).map fun reversed => String.ofList reversed.reverse

/-- The loggers that exist. -/
structure Hierarchy where
  /-- The channel of the program's own logger. -/
  channel : Channel
  /-- The names of the loggers. -/
  names : List String
deriving DecidableEq, Repr

namespace Hierarchy

/-- The loggers before any part of the program has asked for one. -/
def initial : Hierarchy :=
  ⟨.initial, [rootName]⟩

/-- Sets up the channel for a verbose or a quiet run. -/
def configure (hierarchy : Hierarchy) (verbose : Bool) : Hierarchy :=
  { hierarchy with channel := hierarchy.channel.configure verbose }

/-- Makes sure that a logger exists. -/
def add (hierarchy : Hierarchy) (name : String) : Hierarchy :=
  if name ∈ hierarchy.names then hierarchy
  else { hierarchy with names := hierarchy.names ++ [name] }

/-- The logger that a logger hands its records on to. -/
def parent? (hierarchy : Hierarchy) (name : String) : Option String :=
  (ancestors name).find? (· ∈ hierarchy.names)

/-- Whether the records of a logger come to the program's own within some steps. -/
def leadsWithin (hierarchy : Hierarchy) : (steps : Nat) → String → Bool
  | 0, name => name == rootName
  | steps + 1, name =>
      name == rootName ||
        match hierarchy.parent? name with
        | none => false
        | some parent => hierarchy.leadsWithin steps parent

/-- Whether the records of a logger come to the program's own: names get shorter on the way. -/
def leadsToRoot (hierarchy : Hierarchy) (name : String) : Bool :=
  hierarchy.leadsWithin name.length name

/-- What is written for a record that comes to no handler. -/
def writePlainly (record : Record) : List Text :=
  if record.level.reaches .warning then [record.message ++ "\n"] else []

/-- What is written for a record of a logger. -/
def write (hierarchy : Hierarchy) (name : String) (record : Record) : List Text :=
  if hierarchy.leadsToRoot name then hierarchy.channel.write record
  else writePlainly record

end Hierarchy
end Log
end SchemaCodegen
