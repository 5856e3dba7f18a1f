import SchemaCodegen.Fault

/-!
# The search path

Commands are found by their names on the search path.  A name that cannot be handed to
the operating system is that of no command, and what is no text is no name at all.
-/

namespace SchemaCodegen

open Json (Value)

/-- The commands that can be found. -/
inductive SearchPath where
  /-- Every command is found. -/
  | everything
  /-- Only commands of these names are found. -/
  | only (names : List Text)
deriving DecidableEq, Repr

namespace SearchPath

/-- Whether a command of the given name is there. -/
def holds (searchPath : SearchPath) (name : Text) : Bool :=
  name.handoverFault?.isNone &&
    match searchPath with
    | .everything => true
    | .only names => names.contains name

/-- Whether a command is found; it has to be given as a text. -/
def finds (searchPath : SearchPath) (command : Value) : Except Fault Bool :=
  match command with
  | .string name => .ok (searchPath.holds name)
  | other => .error (.notPath other.kind)

end SearchPath
end SchemaCodegen
