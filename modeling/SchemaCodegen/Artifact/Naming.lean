import SchemaCodegen.Schema.Source

/-!
# Names of artifacts

The generators write three files for a schema.  Each lies below the output
directory, at the name of the schema with an ending of its own.
-/

namespace SchemaCodegen

/-- The files that are generated for a schema. -/
inductive Artifact where
  /-- Plain structs. -/
  | plain
  /-- Cap'n Proto bindings. -/
  | capnp
  /-- MessagePack encoders. -/
  | msgp
deriving DecidableEq, Repr

namespace Artifact

/-- The ending of an artifact's name. -/
def ending : Artifact → Text
  | .plain => ".go"
  | .capnp => ".capnp.go"
  | .msgp => ".msgp.go"

/-- The path of an artifact. -/
def path (artifact : Artifact) (outputDir : Path) (source : Schema.Source) : Path :=
  outputDir.join (Path.ofText (source.name ++ artifact.ending))

end Artifact
end SchemaCodegen
