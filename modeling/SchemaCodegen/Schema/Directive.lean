import SchemaCodegen.Text.Occurrence
import SchemaCodegen.Text.Symbol

/-!
# Directives

A schema asks for an optional codec by a marker outside its comments.  A comment
starts at a number sign and goes to the end of its line.
-/

namespace SchemaCodegen
namespace Schema

/-- The optional codecs that a schema asks for. -/
structure Directives where
  /-- Cap'n Proto bindings. -/
  capnp : Bool
  /-- MessagePack encoders. -/
  msgp : Bool
deriving DecidableEq, Repr

/-- The marker that asks for Cap'n Proto bindings. -/
def capnpMarker : String :=
  "$Codec.capnp;"

/-- The marker that asks for MessagePack encoders. -/
def msgpMarker : String :=
  "$Codec.msgp;"

/-- The symbol that starts a comment. -/
def numberSign : Symbol :=
  .char '#'

/--
Drops comments, starting inside of one or outside.  A newline stands in place of
each, also of one that the text ends with.
-/
def withoutCommentsFrom : (inComment : Bool) → Text → Text
  | _, [] => []
  | true, symbol :: rest => withoutCommentsFrom (symbol != .newline) rest
  | false, symbol :: rest =>
      if symbol = numberSign then .newline :: withoutCommentsFrom true rest
      else symbol :: withoutCommentsFrom false rest

/-- The text with every comment, its line end included, replaced by a newline. -/
def withoutComments (text : Text) : Text :=
  withoutCommentsFrom false text

namespace Directives

/-- Finds the markers outside comments. -/
def ofText (text : Text) : Directives :=
  let code := withoutComments text
  { capnp := Occurrence.contains (Text.ofString capnpMarker) code
    msgp := Occurrence.contains (Text.ofString msgpMarker) code }

/-- The names of the requested codecs, in alphabetical order. -/
def requested (directives : Directives) : List String :=
  (if directives.capnp then ["capnp"] else []) ++ (if directives.msgp then ["msgp"] else [])

/-- The requested codecs, as the log tells them. -/
def summary (directives : Directives) : String :=
  if directives.requested.isEmpty then "plain Go only"
  else ", ".intercalate directives.requested

end Directives
end Schema
end SchemaCodegen
