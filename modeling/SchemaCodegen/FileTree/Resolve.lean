import SchemaCodegen.FileTree.Basic
import SchemaCodegen.FileTree.Fault
import SchemaCodegen.Path.Basic

/-!
# Following a path

A path is followed name by name.  Every name but the last has to be that of a
directory; the last one is only looked up where the request needs it.
-/

namespace SchemaCodegen
namespace FileTree

/-- No name has more bytes. -/
def nameLimit : Nat :=
  255

/-- No path has more bytes. -/
def pathLimit : Nat :=
  4095

/-- Whether a name has too many bytes. -/
def isLongName (name : FileName) : Bool :=
  nameLimit < name.length

/-- The names on the way of a path. -/
def names (path : Path) : List FileName :=
  path.parts.map Utf8.encode

/-- The name that goes up. -/
def up : FileName :=
  ".."

/-- Goes from a directory to the directory that a name leads to. -/
def step (tree : FileTree) (directory : Location) (name : FileName) :
    Except Refusal Location :=
  if name = up then .ok directory.dropLast
  else if isLongName name then .error .nameTooLong
  else
    match tree.entry? (directory ++ [name]) with
    | none => .error .noEntry
    | some (.file _) => .error .notDirectory
    | some .directory => .ok (directory ++ [name])

/-- Goes from a directory through the directories that names lead to. -/
def walk (tree : FileTree) : Location → List FileName → Except Refusal Location
  | directory, [] => .ok directory
  | directory, name :: names =>
      match tree.step directory name with
      | .error refusal => .error refusal
      | .ok next => walk tree next names

/-- The entries below a name, each with its location from there. -/
def below (name : FileName) (entries : List (Location × Entry)) :
    List (Location × Entry) :=
  entries.filterMap fun item =>
    match item.1 with
    | first :: rest => if first = name then some (rest, item.2) else none
    | [] => none

/-- The entries below a location, each with its location from there. -/
def entriesBelow (tree : FileTree) (location : Location) : List (Location × Entry) :=
  location.foldl (fun entries name => below name entries) tree.entries

/--
Goes from a directory through the directories that names lead to, as `walk` does.  Each
step only looks at the entries below the directory, so deep trees are walked fast.
-/
def follow (tree : FileTree) :
    Location → (inside : List (Location × Entry)) → List FileName → Except Refusal Location
  | directory, _, [] => .ok directory
  | directory, inside, name :: names =>
      if name = up then
        follow tree directory.dropLast (tree.entriesBelow directory.dropLast) names
      else if isLongName name then .error .nameTooLong
      else
        let next := directory ++ [name]
        let inside := below name inside
        let held :=
          if next.isPrefixOf tree.workingDirectory then some .directory else inside.lookup []
        match held with
        | none => .error .noEntry
        | some (.file _) => .error .notDirectory
        | some .directory => follow tree next inside names

/-- The directory that a path starts at. -/
def start (tree : FileTree) (path : Path) : Location :=
  if path.isAbsolute then [] else tree.workingDirectory

/-- The place that a path leads to. -/
inductive Place where
  /-- A directory that is reached without a last name. -/
  | directory (location : Location)
  /-- A name in a directory, taken or not. -/
  | named (parent : Location) (name : FileName)
deriving DecidableEq, Repr

/-- Follows a path up to its last name. -/
def place (tree : FileTree) (path : Path) : Except Refusal Place :=
  if pathLimit < (Utf8.encode path.text).length then .error .nameTooLong
  else
    let names := names path
    let start := tree.start path
    match tree.follow start (tree.entriesBelow start) names.dropLast with
    | .error refusal => .error refusal
    | .ok parent =>
        match names.getLast? with
        | none => .ok (.directory parent)
        | some name =>
            if name = up then .ok (.directory parent.dropLast)
            else if isLongName name then .error .nameTooLong
            else .ok (.named parent name)

/-- Follows a path to what it names. -/
def find (tree : FileTree) (path : Path) : Except Refusal Entry :=
  match tree.place path with
  | .error refusal => .error refusal
  | .ok (.directory _) => .ok .directory
  | .ok (.named parent name) =>
      match tree.entry? (parent ++ [name]) with
      | none => .error .noEntry
      | some entry => .ok entry

/-- Whether a path names a directory. -/
def isDirectory (tree : FileTree) (path : Path) : Bool :=
  match tree.find path with
  | .ok .directory => true
  | _ => false

end FileTree
end SchemaCodegen
