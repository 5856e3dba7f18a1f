import SchemaCodegen.Text.Utf8

/-!
# File trees

A file tree is a list of entries, each at its own location.  Everything is
observed through `entry?`, which tells what a location holds.  The working
directory and the directories above it always exist.
-/

namespace SchemaCodegen

/-- The bytes of a name in a directory. -/
abbrev FileName := List UInt8

instance : Coe String FileName :=
  ⟨Utf8.bytesOf⟩

/-- The names that lead from the root directory to a place. -/
abbrev Location := List FileName

/-- What a location holds. -/
inductive Entry where
  /-- A directory. -/
  | directory
  /-- A regular file with its bytes. -/
  | file (content : List UInt8)
deriving DecidableEq, Repr

/-- The directories and files of a system. -/
structure FileTree where
  /-- The directory that relative paths start at. -/
  workingDirectory : Location
  /-- The entries outside the way to the working directory. -/
  entries : List (Location × Entry)
deriving DecidableEq, Repr

namespace FileTree

/-- What the tree holds at a location. -/
def entry? (tree : FileTree) (location : Location) : Option Entry :=
  if location.isPrefixOf tree.workingDirectory then some .directory
  else tree.entries.lookup location

/-- Puts an entry at a location, in place of what is there. -/
def insert (tree : FileTree) (location : Location) (entry : Entry) : FileTree :=
  if (tree.entries.lookup location).isSome then
    { tree with
      entries := tree.entries.map fun item =>
        if item.1 = location then (location, entry) else item }
  else { tree with entries := (location, entry) :: tree.entries }

/-- Takes the entry at a location away. -/
def erase (tree : FileTree) (location : Location) : FileTree :=
  { tree with entries := tree.entries.filter fun item => item.1 ≠ location }

end FileTree
end SchemaCodegen
