import SchemaCodegen.Fault
import SchemaCodegen.Text.Occurrence

/-!
# Renaming declared types

Every declared name in a generated text gets a suffix, so that the bindings do
not clash with the plain structs.  The names are taken one after the other, each
once, and each pass sees the result of the one before.
-/

namespace SchemaCodegen
namespace Rename

open Json (Value)

/-- How a name is recognised in a text. -/
inductive Mode where
  /-- Wherever its letters stand. -/
  | anywhere
  /-- Only as a whole identifier. -/
  | wholeIdentifier
deriving DecidableEq, Repr

namespace Mode

/-- The name of a mode in settings. -/
def name : Mode → String
  | .anywhere => "sequential"
  | .wholeIdentifier => "token_boundary"

/-- The mode that a setting names. -/
def ofValue (value : Value) : Except Fault Mode :=
  if value = .string anywhere.name then .ok .anywhere
  else if value = .string wholeIdentifier.name then .ok .wholeIdentifier
  else .error (.unknownMode value)

/-- Every mode is named by its own name. -/
@[simp]
theorem ofValue_name (mode : Mode) : ofValue (.string mode.name) = .ok mode := by
  cases mode <;> rfl

end Mode

/-- The suffix that is used when none is given. -/
def defaultSuffix : String :=
  "Capn"

/-- Whether a text starts with a symbol that would continue an identifier. -/
def startsInside (text : Text) : Bool :=
  text.head?.any Symbol.isIdentifier

/--
Whether the name stands at the head of the text as a whole identifier, given
whether the symbol before the text belongs to an identifier.
-/
def isIdentifierAt (name : Text) (inside : Bool) (text : Text) : Bool :=
  !inside && name.isPrefixOf text && !startsInside (text.drop name.length)

/--
Replaces the whole identifiers behind the next `consumed` symbols, which belong
to one that is already replaced.
-/
def replaceIdentifiersFrom (name replacement : Text) :
    (consumed : Nat) → (inside : Bool) → Text → Text
  | _, _, [] => []
  | consumed + 1, _, symbol :: rest =>
      replaceIdentifiersFrom name replacement consumed symbol.isIdentifier rest
  | 0, inside, symbol :: rest =>
      if isIdentifierAt name inside (symbol :: rest) then
        replacement ++
          replaceIdentifiersFrom name replacement (name.length - 1) symbol.isIdentifier rest
      else symbol :: replaceIdentifiersFrom name replacement 0 symbol.isIdentifier rest

/-- Replaces a nonempty name wherever it is a whole identifier. -/
def replaceIdentifiers (name replacement text : Text) : Text :=
  replaceIdentifiersFrom name replacement 0 false text

/-- Whether a nonempty name is a whole identifier somewhere in a text. -/
def occursAsIdentifier (name : Text) : (inside : Bool) → Text → Bool
  | _, [] => false
  | inside, symbol :: rest =>
      isIdentifierAt name inside (symbol :: rest) ||
        occursAsIdentifier name symbol.isIdentifier rest

/-- The nonempty names, each once, in the order in which they are first seen. -/
def distinctNames (names : List Text) : List Text :=
  (names.foldl (fun seen name => if name ∈ seen then seen else seen ++ [name]) []).filter
    (· ≠ [])

/-- Gives one name its suffix. -/
def renameOne (mode : Mode) (suffix text name : Text) : Text :=
  match mode with
  | .anywhere => Occurrence.replace name (name ++ suffix) text
  | .wholeIdentifier => replaceIdentifiers name (name ++ suffix) text

/-- Gives every name its suffix. -/
def rename (mode : Mode) (suffix : Text) (names : List Text) (text : Text) : Text :=
  (distinctNames names).foldl (renameOne mode suffix) text

/-- Whether any pass has to put the suffix behind a name. -/
def needsSuffix (mode : Mode) (names : List Text) (text : Text) : Bool :=
  match mode with
  | .anywhere => !(distinctNames names).isEmpty
  | .wholeIdentifier =>
      (distinctNames names).any fun name => occursAsIdentifier name false text

/--
Renames with a suffix taken from the settings.  A suffix that is no string is a
fault as soon as it is needed.
-/
def renameWith (mode : Mode) (suffix : Value) (names : List Text) (text : Text) :
    Except Fault Text :=
  match suffix with
  | .string suffix => .ok (rename mode suffix names text)
  | other =>
      if needsSuffix mode names text then .error (.notText other.kind) else .ok text

end Rename
end SchemaCodegen
