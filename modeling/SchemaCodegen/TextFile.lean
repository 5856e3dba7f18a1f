import SchemaCodegen.Fault
import SchemaCodegen.FileTree.Access
import SchemaCodegen.Text.LineEnding

/-!
# Text files

A text file is read as a whole and replaced as a whole: the new text is written
to a temporary file in the same directory, which takes the place of the old file
only when it is complete.  On failure the temporary file is removed again.
-/

namespace SchemaCodegen
namespace TextFile

/-- Reads a file as text. -/
def read (policy : Utf8.Policy) (tree : FileTree) (path : Path) : Except Fault Text :=
  match tree.read path with
  | .error fault => .error (.access fault)
  | .ok bytes =>
      match Utf8.decodeWith policy bytes with
      | .error fault => .error (.undecodable fault)
      | .ok text => .ok text.normalizeLineEndings

/-- Writes a text to a file; the tree is given back with the fault, if there is one. -/
def write (policy : Utf8.Policy) (tree : FileTree) (path : Path) (content : Text) :
    FileTree × Except Fault Unit :=
  match tree.createTemporary path with
  | .error fault => (tree, .error (.access fault))
  | .ok (temporary, created) =>
      match Utf8.encodeWith policy content with
      | .error fault => (created.erase temporary.location, .error (.unencodable fault))
      | .ok bytes =>
          let filled := created.setContent temporary.location bytes
          match filled.replace temporary path with
          | .error fault => (filled.erase temporary.location, .error (.access fault))
          | .ok replaced => (replaced, .ok ())

/-- Reads a file, transforms its text and writes it back. -/
def update (policy : Utf8.Policy) (tree : FileTree) (path : Path)
    (transform : Text → Except Fault Text) : FileTree × Except Fault Text :=
  match read policy tree path with
  | .error fault => (tree, .error fault)
  | .ok text =>
      match transform text with
      | .error fault => (tree, .error fault)
      | .ok content =>
          match write policy tree path content with
          | (tree, .error fault) => (tree, .error fault)
          | (tree, .ok ()) => (tree, .ok content)

end TextFile
end SchemaCodegen
