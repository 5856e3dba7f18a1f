import SchemaCodegen.Text.Utf8

/-!
# Text for the operating system

Paths and the words of command lines are handed to the operating system as bytes that
end with a zero.  A text is refused beforehand when one of its symbols has no bytes, and
else when it holds the character zero.
-/

namespace SchemaCodegen

/-- Why a text cannot be handed to the operating system. -/
inductive HandoverFault where
  /-- Some of its symbols are not encoded. -/
  | unencodable (fault : Utf8.EncodeFault)
  /-- It holds the character zero. -/
  | nul
deriving DecidableEq, Repr

/-- The message for the user. -/
def HandoverFault.message : HandoverFault → String
  | .unencodable fault => fault.message
  | .nul => "embedded null byte"

namespace Text

/-- Why a text cannot be handed to the operating system, if it cannot. -/
def handoverFault? (text : Text) : Option HandoverFault :=
  match Utf8.encodeFaultFrom .preserve 0 text with
  | some fault => some (.unencodable fault)
  | none => if .char '\x00' ∈ text then some .nul else none

end Text
end SchemaCodegen
