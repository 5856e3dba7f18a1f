import SchemaCodegen.Fault
import SchemaCodegen.FileTree.Access
import SchemaCodegen.Schema.Directive
import SchemaCodegen.Schema.TypeName
import SchemaCodegen.Text.LineEnding

/-!
# Schema sources

A schema is known by its path and its text.  Its name is the path without the
extension; an absolute path loses its root, so that names can be placed below
the output directory.
-/

namespace SchemaCodegen
namespace Schema

/-- A schema file with its contents. -/
structure Source where
  /-- The path of the file. -/
  path : Path
  /-- The text of the file. -/
  text : Text
deriving DecidableEq, Repr

/-- The extension of schema files. -/
def extension : Text :=
  ".capnp"

/-- Drops the extension once, if it is there. -/
def dropExtension (text : Text) : Text :=
  if extension.isSuffixOf text then text.take (text.length - extension.length)
  else text

namespace Source

/-- The name of a schema, its directories included. -/
def name (source : Source) : Text :=
  dropExtension source.path.withoutRoot.text

/-- The codecs that the schema asks for. -/
def directives (source : Source) : Directives :=
  .ofText source.text

/-- The names that the schema declares. -/
def typeNames (source : Source) : List Text :=
  Schema.typeNames source.text

/-- Reads a schema file; bytes that are not valid UTF-8 are kept. -/
def read (tree : FileTree) (path : Path) : Except Fault Source :=
  match tree.read path with
  | .error fault => .error (.access fault)
  | .ok bytes => .ok ⟨path, (Utf8.decode bytes).normalizeLineEndings⟩

end Source
end Schema
end SchemaCodegen
