import SchemaCodegen.Text.Symbol

/-!
# Type names

The names that a schema declares are the runs of letters behind the word
`struct` and a blank.  Comments are searched like any other text.
-/

namespace SchemaCodegen
namespace Schema

/-- What stands before a declared name. -/
def structKeyword : Text :=
  Text.ofString "struct "

/-- The name that is declared at the head of a text, if there is one. -/
def declaredName (text : Text) : Text :=
  if structKeyword.isPrefixOf text then
    (text.drop structKeyword.length).takeWhile Symbol.isLetter
  else []

/--
The declared names behind the next `consumed` symbols, which belong to the
declaration found last.
-/
def typeNamesFrom : (consumed : Nat) → Text → List Text
  | _, [] => []
  | consumed + 1, _ :: rest => typeNamesFrom consumed rest
  | 0, symbol :: rest =>
      let name := declaredName (symbol :: rest)
      if name.isEmpty then typeNamesFrom 0 rest
      else name :: typeNamesFrom (structKeyword.length + name.length - 1) rest

/-- The declared names in the order of the text, repeated ones included. -/
def typeNames (text : Text) : List Text :=
  typeNamesFrom 0 text

end Schema
end SchemaCodegen
