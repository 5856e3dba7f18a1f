import SchemaCodegen.FileTree.Resolve
import SchemaCodegen.Nesting

/-!
# Requests to the file system

Each request either is refused and leaves the tree as it is, or changes exactly
the place that its path leads to.  Creating a directory with its parents is a
sequence of such requests and keeps what was created before one is refused.
-/

namespace SchemaCodegen
namespace FileTree

/-- The fault of a refused request for one path. -/
def refuse (path : Path) (refusal : Refusal) : AccessFault :=
  .refused refusal path.text none

/-- The bytes of the file that a path names. -/
def read (tree : FileTree) (path : Path) : Except AccessFault (List UInt8) :=
  match path.fault? with
  | some fault => .error (.unusable fault)
  | none =>
      match tree.find path with
      | .error refusal => .error (refuse path refusal)
      | .ok .directory => .error (refuse path .isDirectory)
      | .ok (.file content) => .ok content

/-- Creates a directory in an existing one. -/
def makeDirectory (tree : FileTree) (path : Path) : Except Refusal FileTree :=
  match tree.place path with
  | .error refusal => .error refusal
  | .ok (.directory _) => .error .taken
  | .ok (.named parent name) =>
      if (tree.entry? (parent ++ [name])).isSome then .error .taken
      else .ok (tree.insert (parent ++ [name]) .directory)

/-- A tree after some requests, with the fault of the one that was refused. -/
abbrev Attempt := FileTree × Option AccessFault

/-- A refused directory is no fault when it is there already. -/
def settle (tree : FileTree) (path : Path) (refusal : Refusal) : Attempt :=
  if tree.isDirectory path then (tree, none) else (tree, some (refuse path refusal))

/--
Creates the directory that the reversed parts lead to.  When its parent is
missing, the parent is created first, in the same way, as long as there is room
for one more level.
-/
def makeReversed (root : Root) : (room : Nat) → List Text → FileTree → Attempt
  | _, [], tree =>
      let path : Path := ⟨root, []⟩
      match tree.makeDirectory path with
      | .ok tree => (tree, none)
      | .error refusal => settle tree path refusal
  | room, last :: reversed, tree =>
      let path : Path := ⟨root, (last :: reversed).reverse⟩
      match tree.makeDirectory path, room with
      | .ok tree, _ => (tree, none)
      | .error .noEntry, 0 => (tree, some .tooDeep)
      | .error .noEntry, room + 1 =>
          match makeReversed root room reversed tree with
          | (tree, some fault) => (tree, some fault)
          | (tree, none) =>
              match tree.makeDirectory path with
              | .ok tree => (tree, none)
              | .error .noEntry => (tree, some (refuse path .noEntry))
              | .error refusal => settle tree path refusal
      | .error refusal, _ => settle tree path refusal

/-- Creates a directory with its missing parents, unless it is there already. -/
def makeDirectories (tree : FileTree) (path : Path) : Attempt :=
  match path.fault? with
  | some fault => (tree, some (.unusable fault))
  | none => makeReversed path.root (Nesting.limit - 1) path.parts.reverse tree

/-- The name of a temporary file for a file of the given name, with a tag in its middle. -/
def temporaryName (name tag : Text) : Text :=
  "." ++ name ++ "." ++ tag ++ ".tmp"

/-- Messages do not tell the tag of a temporary file; this stands in its place. -/
def shownTag : Text :=
  "XXXXXXXX"

/-- The tags of temporary files, each of eight characters, by number of tries. -/
def tag (tries : Nat) : Text :=
  let digits := Nat.toDigits 10 tries
  (List.replicate (8 - digits.length) '0' ++ digits).map .char

/-- The first name for a temporary file that is not taken in the directory. -/
def freeName? (tree : FileTree) (parent : Location) (name : Text) : Option FileName :=
  ((List.range (tree.entries.length + 1)).map fun tries =>
      Utf8.encode (temporaryName name (tag tries))).find?
    fun candidate => (tree.entry? (parent ++ [candidate])).isNone

/-- A temporary file: where it lies, and the path by which messages know it. -/
structure Temporary where
  /-- Where the file lies. -/
  location : Location
  /-- Its absolute path, without the tag. -/
  path : Path
deriving DecidableEq, Repr

/-- The absolute path of a temporary file, without the tag, for a path from a directory. -/
def temporaryPath (directory : List Text) (path : Path) : Path :=
  (path.parent.absolute directory).child (temporaryName path.name shownTag)

/-- The path by which messages know the temporary file for a path. -/
def shownTemporary (tree : FileTree) (path : Path) : Path :=
  temporaryPath (tree.workingDirectory.map Utf8.decode) path

/--
Creates an empty temporary file beside the file that a path names.  The directory is found
by the spelling of the path.  What the path adds to the working directory has to be taken
by the operating system, which has told the rest itself.
-/
def createTemporary (tree : FileTree) (path : Path) :
    Except AccessFault (Temporary × FileTree) :=
  let shown := tree.shownTemporary path
  match (temporaryPath [] path).fault? with
  | some fault => .error (.unusable (shown.fault?.getD fault))
  | none =>
      match tree.place shown with
      | .error refusal => .error (refuse shown refusal)
      | .ok (.directory _) => .error (refuse shown .taken)
      | .ok (.named parent _) =>
          match tree.freeName? parent path.name with
          | none => .error (refuse shown .taken)
          | some name =>
              let location := parent ++ [name]
              .ok (⟨location, shown⟩, tree.insert location (.file []))

/-- Replaces the bytes of the file at a location. -/
def setContent (tree : FileTree) (location : Location) (content : List UInt8) : FileTree :=
  tree.insert location (.file content)

/--
Moves a temporary file to the place that a path leads to.  A file there is
replaced, a directory is not.
-/
def replace (tree : FileTree) (temporary : Temporary) (path : Path) :
    Except AccessFault FileTree :=
  let refuse (refusal : Refusal) : AccessFault :=
    .refused refusal temporary.path.text (some path.text)
  match path.fault?, tree.entry? temporary.location with
  | some fault, _ => .error (.unusable fault)
  | none, none => .error (refuse .noEntry)
  | none, some entry =>
      match tree.place path with
      | .error refusal => .error (refuse refusal)
      | .ok (.directory _) => .error (refuse .busy)
      | .ok (.named parent name) =>
          match tree.entry? (parent ++ [name]) with
          | some .directory => .error (refuse .isDirectory)
          | _ => .ok ((tree.erase temporary.location).insert (parent ++ [name]) entry)

/--
Puts bytes into the file that a path names, or a directory in its place when
there are none, and creates the directories above it.
-/
def install (tree : FileTree) (path : Path) (content : Option (List UInt8)) : FileTree :=
  match content with
  | none => (tree.makeDirectories path).1
  | some content =>
      let tree := (tree.makeDirectories path.parent).1
      match tree.place path with
      | .ok (.named parent name) =>
          match tree.entry? (parent ++ [name]) with
          | some .directory => tree
          | _ => tree.insert (parent ++ [name]) (.file content)
      | _ => tree

end FileTree
end SchemaCodegen
