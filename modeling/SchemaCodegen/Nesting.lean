/-!
# Nesting

Values and paths are followed one level at a time, down to a limit.
-/

namespace SchemaCodegen
namespace Nesting

/-- No more levels are followed. -/
def limit : Nat :=
  990

end Nesting
end SchemaCodegen
