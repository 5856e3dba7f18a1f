import SchemaCodegen.Proofs.FileTree.Directories
import SchemaCodegen.Proofs.Generation.Course
import SchemaCodegen.Proofs.TextFile.Replacement

/-!
# The tree after a run

A run creates the output directory, lets its commands take effect one after the
other and renames the bindings right after they have been written.  Nothing else
changes in the tree.
-/

namespace SchemaCodegen
namespace Generation
namespace TypedJob

/-- What the launch for an artifact does, given how many there were before. -/
def effect (typed : TypedJob) (index : Nat) (artifact : Artifact) : Effect :=
  typed.launcher.effect index (typed.command artifact)

end TypedJob
end Generation
end SchemaCodegen
