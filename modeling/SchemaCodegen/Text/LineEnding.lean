import SchemaCodegen.Text.Symbol

/-!
# Line endings

Text that is read from a file has one kind of line ending: a carriage return,
alone or before a newline, counts as a newline.
-/

namespace SchemaCodegen
namespace Text

/-- Turns every line ending into a newline. -/
def normalizeLineEndings : Text → Text
  | [] => []
  | .char '\r' :: .char '\n' :: rest => .newline :: normalizeLineEndings rest
  | .char '\r' :: rest => .newline :: normalizeLineEndings rest
  | symbol :: rest => symbol :: normalizeLineEndings rest

end Text
end SchemaCodegen
