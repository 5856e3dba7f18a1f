import SchemaCodegen.Text.Handover

/-!
# Paths

A path is a root and a list of parts.  Empty parts and parts that name the
directory itself are dropped when a path is read, so two spellings of a path
differ only where they may name different files.
-/

namespace SchemaCodegen

/-- How a path starts. -/
inductive Root where
  /-- At the working directory. -/
  | none
  /-- At the root directory. -/
  | single
  /-- At the root directory, spelled with exactly two slashes. -/
  | double
deriving DecidableEq, Repr

/-- The symbol between the parts of a path. -/
def slash : Symbol :=
  .char '/'

/-- The spelling of a root. -/
def Root.text : Root → Text
  | .none => []
  | .single => [slash]
  | .double => [slash, slash]

/-- A path in the file tree. -/
structure Path where
  /-- Where the path starts. -/
  root : Root
  /-- The names on the way, two dots going up. -/
  parts : List Text
deriving DecidableEq, Repr

namespace Path

/-- The root of a spelling, told by its leading slashes. -/
def rootOf (text : Text) : Root :=
  match (text.takeWhile (· == slash)).length with
  | 0 => .none
  | 2 => .double
  | _ => .single

/-- The pieces of a spelling between its slashes. -/
def pieces : Text → List Text
  | [] => [[]]
  | symbol :: rest =>
      if symbol = slash then [] :: pieces rest
      else
        match pieces rest with
        | [] => [[symbol]]
        | piece :: others => (symbol :: piece) :: others

/-- Pieces that lead nowhere are no parts. -/
def isPart (piece : Text) : Bool :=
  piece != [] && piece != "."

/-- The parts of a spelling. -/
def partsOf (text : Text) : List Text :=
  (pieces text).filter isPart

/-- Reads a path. -/
def ofText (text : Text) : Path :=
  ⟨rootOf text, partsOf text⟩

/-- The parts of a path, joined by slashes. -/
def joinParts : List Text → Text
  | [] => []
  | [part] => part
  | part :: rest => part ++ slash :: joinParts rest

/-- The spelling of a path; the working directory is spelled by a dot. -/
def text (path : Path) : Text :=
  if path.root = .none ∧ path.parts = [] then "."
  else path.root.text ++ joinParts path.parts

/-- Whether the path starts at the root directory. -/
def isAbsolute (path : Path) : Bool :=
  path.root != .none

/-- The last part, or nothing for a path without parts. -/
def name (path : Path) : Text :=
  path.parts.getLastD []

/-- The path without its last part. -/
def parent (path : Path) : Path :=
  ⟨path.root, path.parts.dropLast⟩

/-- The path with one more part. -/
def child (path : Path) (part : Text) : Path :=
  ⟨path.root, path.parts ++ [part]⟩

/-- The path followed by another one, which counts alone when it is absolute. -/
def join (path following : Path) : Path :=
  if following.isAbsolute then following else ⟨path.root, path.parts ++ following.parts⟩

/-- The same parts, starting at the working directory. -/
def withoutRoot (path : Path) : Path :=
  ⟨.none, path.parts⟩

/-- The part that goes up. -/
def up : Text :=
  ".."

/-- Follows names from a directory, the name that goes up taking back the last one. -/
def collapse {α : Type} [DecidableEq α] (up : α) (directory names : List α) : List α :=
  names.foldl
    (fun reached name => if name = up then reached.dropLast else reached ++ [name]) directory

/-- The absolute form of a path, with every way up taken back by its spelling alone. -/
def absolute (workingDirectory : List Text) (path : Path) : Path :=
  match path.root with
  | .none => ⟨.single, collapse up workingDirectory path.parts⟩
  | root => ⟨root, collapse up [] path.parts⟩

/-- Why the operating system does not take the path, if it does not. -/
def fault? (path : Path) : Option HandoverFault :=
  path.text.handoverFault?

end Path
end SchemaCodegen
