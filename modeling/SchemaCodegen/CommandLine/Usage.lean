import SchemaCodegen.Artifact.Naming

/-!
# Usage and help

The usage text is shown when no schema is given, the help text when it is asked
for.
-/

namespace SchemaCodegen
namespace CommandLine

open Json (Value)

/-- What the usage text tells about an artifact that a marker asks for. -/
def markerLine (artifact : Artifact) (description marker : String) : Text :=
  "     #   <name>" ++ artifact.ending ++ ": " ++ description ++
    " (when the schema declares " ++ marker ++ ")\n"

/-- The usage text for a program of the given name. -/
def usage (program : Value) : Text :=
  "\nuse: " ++ program.display ++ " -o <outdir> -source <model.capnp>\n" ++
  "     # Reads a .capnp schema and writes Go code next to it:\n" ++
  "     #   <name>" ++ Artifact.plain.ending ++
    ": plain Go structs with json tags (always)\n" ++
  markerLine .capnp "Cap'n Proto Go bindings, types suffixed with Capn"
    Schema.capnpMarker ++
  markerLine .msgp "MessagePack encoders for the plain Go structs" Schema.msgpMarker ++
  "     # options:\n" ++
  "     #   -o <outdir> specifies the directory to write to (created if need be).\n" ++
  "     #   -verbose enables verbose mode, echoing every external command.\n" ++
  "     #   --config <file.json> loads pipeline settings.\n" ++
  "     #   --schema-dir, --go-capnp-dir set the capnp include directories.\n" ++
  "     #   --token-boundary only renames whole identifiers when adding the " ++
    "Capn suffix.\n" ++
  "     # required:\n" ++
  "     #   -source <model.capnp> specifies the input schema file.\n" ++
  "     #\n\n"

/-- The help text. -/
def help : String :=
  "Usage: caps [OPTIONS]\n\n" ++
  "Options:\n" ++
  "  -o PATH                 Output directory, created if need be\n" ++
  "  -source, --source PATH  Input .capnp schema file\n" ++
  "  -verbose, --verbose     Echo every external command\n" ++
  "  -c, --config FILE\n" ++
  "  --schema-dir TEXT       Include directory holding the caps schemas\n" ++
  "  --go-capnp-dir TEXT     Include directory holding go-capnproto schemas\n" ++
  "  --token-boundary        Only rename whole identifiers when adding the Capn\n" ++
  "                          suffix\n" ++
  "  --help                  Show this message and exit.\n"

end CommandLine
end SchemaCodegen
