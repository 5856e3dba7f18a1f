import SchemaCodegen.Command.Generators

/-!
# Settings of the right kinds

Settings that are texts and truth values where they are meant to be.  With them
every command can be built and the output directory is a path.
-/

namespace SchemaCodegen

open Json (Value)

/-- Settings of which each is of the kind that it is meant to be. -/
structure TypedConfig where
  /-- The directory that generated files are written to. -/
  outputDir : Text := "."
  /-- Whether the log tells the details. -/
  verbose : Bool := false
  /-- How declared names are recognised in generated text. -/
  mode : Rename.Mode := .anywhere
  /-- What is put behind declared names. -/
  suffix : Text := Rename.defaultSuffix
  /-- The schema compiler. -/
  compiler : Text := "capnp"
  /-- The include directory with the codec annotations. -/
  schemaDir : Text := "."
  /-- The include directory with the schemas of the Go plugin. -/
  goCapnpDir : Text := "vendor/github.com/glycerine/go-capnproto"
  /-- The plugin that writes plain structs. -/
  plainPlugin : Text := "pgo"
  /-- The plugin that writes Cap'n Proto bindings. -/
  codecPlugin : Text := "go"
  /-- The MessagePack generator. -/
  encoder : Text := "msgp"
  /-- Whether the MessagePack generator generates tests too. -/
  generateTests : Bool := false
deriving DecidableEq, Repr

namespace TypedConfig

/-- The settings as values. -/
def config (settings : TypedConfig) : Config where
  outputDir := .string settings.outputDir
  verbose := .bool settings.verbose
  mode := .given settings.mode
  suffix := .string settings.suffix
  capnp :=
    .given
      { command := .string settings.compiler
        schemaDir := .string settings.schemaDir
        goCapnpDir := .string settings.goCapnpDir
        plainPlugin := .string settings.plainPlugin
        codecPlugin := .string settings.codecPlugin }
  msgp :=
    .given
      { command := .string settings.encoder
        generateTests := .bool settings.generateTests }

/-- The directory that generated files are written to, as a path. -/
def outputPath (settings : TypedConfig) : Path :=
  Path.ofText settings.outputDir

/-- The flag that selects a plugin and tells it where to write. -/
def outputFlag (settings : TypedConfig) (plugin : Text) : Text :=
  if settings.outputDir = "." then "-o" ++ plugin else "-o" ++ plugin ++ settings.outputDir

/-- The command that compiles a schema. -/
def compileCommand (settings : TypedConfig) (schema : Text) (withCodec : Bool) : Command where
  program := .string settings.compiler
  arguments :=
    ["-I" ++ settings.schemaDir, "-I" ++ settings.goCapnpDir, "compile",
      settings.outputFlag settings.plainPlugin] ++
      (if withCodec then [settings.outputFlag settings.codecPlugin] else []) ++ [schema]

@[simp] theorem capnp_config
    (settings : TypedConfig)
    (schema : Text)
    (withCodec : Bool) :
    Command.capnp settings.config schema withCodec =
      .ok (settings.compileCommand schema withCodec) := by
  unfold Command.capnp Command.outputFlags
  by_cases here : settings.outputDir = "."
  · cases withCodec <;>
      simp [config, Section.require, Config.writesElsewhere, here, compileCommand,
        outputFlag, Command.pluginFlag]
  · cases withCodec <;>
      simp [config, Section.require, Config.writesElsewhere, here, compileCommand,
        outputFlag, Command.pluginFlag, Command.directed, bind, Except.bind, pure,
        Except.pure]

/-- The command that generates the MessagePack encoders. -/
def encodeCommand (settings : TypedConfig) (input output : Text) : Command where
  program := .string settings.encoder
  arguments :=
    ["-o=" ++ output, "-tests=" ++ (if settings.generateTests then "true" else "false"),
      "-file=" ++ input]

@[simp] theorem msgp_config
    (settings : TypedConfig)
    (input output : Text) :
    Command.msgp settings.config input output =
      .ok (settings.encodeCommand input output) := rfl

end TypedConfig
end SchemaCodegen
