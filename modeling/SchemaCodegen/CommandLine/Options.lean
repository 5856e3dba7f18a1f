import SchemaCodegen.Text.Symbol

/-!
# Options

An option is either a flag or takes a value.  It has one or more spellings, and
every spelling belongs to one option only.
-/

namespace SchemaCodegen
namespace CommandLine

/-- The options without a value. -/
inductive Flag where
  /-- Tell the details of the run. -/
  | verbose
  /-- Rename whole identifiers only. -/
  | wholeIdentifiers
  /-- Show the help text. -/
  | help
deriving DecidableEq, Repr

/-- The options with a value. -/
inductive Setting where
  /-- The output directory. -/
  | outputDir
  /-- The schema file. -/
  | source
  /-- The settings file. -/
  | config
  /-- The include directory with the codec annotations. -/
  | schemaDir
  /-- The include directory with the schemas of the Go plugin. -/
  | goCapnpDir
deriving DecidableEq, Repr

/-- What the spelling of an option names. -/
inductive Named where
  /-- An option without a value. -/
  | flag (flag : Flag)
  /-- An option with a value. -/
  | setting (setting : Setting)
deriving DecidableEq, Repr

/-- The long spellings, dashes included. -/
def longSpellings : List (Text × Named) :=
  [("-source", .setting .source), ("--source", .setting .source),
    ("-verbose", .flag .verbose), ("--verbose", .flag .verbose),
    ("--config", .setting .config), ("--schema-dir", .setting .schemaDir),
    ("--go-capnp-dir", .setting .goCapnpDir),
    ("--token-boundary", .flag .wholeIdentifiers), ("--help", .flag .help)]

/-- The letters that spell an option behind a single dash; all of them take a value. -/
def shortSpellings : List (Symbol × Setting) :=
  [(.char 'o', .outputDir), (.char 'c', .config)]

/-- The environment variable that gives an option its value when it is absent. -/
def Setting.fallback? : Setting → Option String
  | .schemaDir => some "CAPS_SCHEMA_DIR"
  | .goCapnpDir => some "CAPS_GO_CAPNP_DIR"
  | .outputDir | .source | .config => none

end CommandLine
end SchemaCodegen
