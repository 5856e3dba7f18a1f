import SchemaCodegen.Config.Basic

/-!
# The commands of the generators

The schema compiler is told its plugins, each with the output directory right
behind its name unless files go to the working directory.  The MessagePack
generator reads the plain structs.
-/

namespace SchemaCodegen

open Json (Value)

/-- A command with its arguments. -/
structure Command where
  /-- What is run. -/
  program : Value
  /-- What it is given. -/
  arguments : List Text
deriving DecidableEq, Repr

namespace Command

/-- The words of a command line. -/
def words (command : Command) : List Value :=
  command.program :: command.arguments.map .string

/-- The flag that selects a plugin. -/
def pluginFlag (plugin : Value) : Text :=
  "-o" ++ plugin.display

/-- A flag with the output directory behind it. -/
def directed (directory : Value) (flag : Text) : Except Fault Text :=
  match directory with
  | .string directory => .ok (flag ++ directory)
  | other => .error (.notText other.kind)

/-- The plugin flags for a run, with the output directory where one is given. -/
def outputFlags (config : Config) (plugins : List Value) : Except Fault (List Text) :=
  let flags := plugins.map pluginFlag
  if config.writesElsewhere then flags.mapM (directed config.outputDir) else .ok flags

/-- The command that compiles a schema, with the bindings or only the plain structs. -/
def capnp (config : Config) (schema : Text) (withCodec : Bool) : Except Fault Command :=
  match config.capnp.require "plain_plugin" with
  | .error fault => .error fault
  | .ok settings =>
      let plugins :=
        settings.plainPlugin :: (if withCodec then [settings.codecPlugin] else [])
      match outputFlags config plugins with
      | .error fault => .error fault
      | .ok flags =>
          .ok
            { program := settings.command
              arguments :=
                ["-I" ++ settings.schemaDir.display, "-I" ++ settings.goCapnpDir.display,
                  "compile"] ++ flags ++ [schema] }

/-- The command that generates the MessagePack encoders. -/
def msgp (config : Config) (input output : Text) : Except Fault Command :=
  match config.msgp.require "command" with
  | .error fault => .error fault
  | .ok settings =>
      .ok
        { program := settings.command
          arguments :=
            ["-o=" ++ output,
              "-tests=" ++ (if settings.generateTests.isTruthy then "true" else "false"),
              "-file=" ++ input] }

end Command
end SchemaCodegen
