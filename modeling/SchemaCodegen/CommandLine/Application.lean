import SchemaCodegen.CommandLine.Request
import SchemaCodegen.CommandLine.Usage
import SchemaCodegen.Generation

/-!
# The command

The command reads its settings and its schema and runs the generators.  Options
and variables override the settings file one by one.  How the command ends is a
conclusion, from which its exit status and everything it writes follow.
-/

namespace SchemaCodegen
namespace CommandLine

open Json (Value)

/-- What the command finds around it, besides the file tree. -/
structure Surroundings where
  /-- The arguments. -/
  arguments : List Text
  /-- The environment. -/
  environment : Environment
  /-- How commands are found and run. -/
  runner : Runner

/-- A run of the generators, as far as it has come. -/
structure Session where
  /-- Where the log is written. -/
  channel : Log.Channel
  /-- What the log tells before the run. -/
  preamble : List Log.Record
  /-- The run. -/
  progress : Generation.Progress
deriving DecidableEq, Repr

/-- How the command ends. -/
inductive Conclusion where
  /-- With the help text. -/
  | help
  /-- With the usage text, because no schema is given. -/
  | usage
  /-- With a message about the command line. -/
  | misused (fault : UsageFault)
  /-- With a failure before the run of the generators. -/
  | failed (failure : Failure)
  /-- With a run of the generators. -/
  | ran (session : Session)
deriving DecidableEq, Repr

namespace Request

/-- Changes the settings of the schema compiler if there is a value for one of them. -/
def override (config : Config) (setting : String) (value : Option Text)
    (change : CapnpSettings → Value → CapnpSettings) : Except Fault Config :=
  match value with
  | none => .ok config
  | some value =>
      (config.capnp.require setting).map fun settings =>
        { config with capnp := .given (change settings (.string value)) }

/-- The settings with everything that the request overrides. -/
def layer (request : Request) (config : Config) : Except Fault Config := do
  let config :=
    { config with
      outputDir := request.outputDir.elim config.outputDir .string
      verbose := if request.verbose then .bool true else config.verbose
      mode := if request.wholeIdentifiers then .given .wholeIdentifier else config.mode }
  let config ← override config "schema_dir" request.schemaDir
    fun settings value => { settings with schemaDir := value }
  override config "go_capnp_dir" request.goCapnpDir
    fun settings value => { settings with goCapnpDir := value }

/-- The settings of a request, from its file or the defaults. -/
def baseConfig (request : Request) (tree : FileTree) : Except Failure Config :=
  match request.config with
  | none => .ok {}
  | some path => Config.load tree (configPath tree path)

/-- The settings of a request, with everything that it overrides. -/
def settings (request : Request) (tree : FileTree) : Except Failure Config :=
  (request.baseConfig tree).bind fun config => (request.layer config).mapError .unhandled

end Request

/-- Reads the schema; the user is told about faults of the file. -/
def readSource (tree : FileTree) (path : Text) : Except Failure Schema.Source :=
  (Schema.Source.read tree (Path.ofText path)).mapError fun fault =>
    if fault.isFileFault then .diagnostic ("failed to read schema file: " ++ fault.message)
    else .unhandled fault

/-- What the log tells when a command cannot be run. -/
def unavailableRecord (command : Value) : Log.Record :=
  ⟨.warning, command.display ++ " not found on PATH"⟩

/-- What the log tells about the schema compiler before the run. -/
def preamble (command : Value) (found : Bool) : List Log.Record :=
  if found then [] else [unavailableRecord command]

/--
Runs the generators on a schema, once the schema compiler has been looked for;
undecodable bytes in generated files are kept.
-/
def session (surroundings : Surroundings) (tree : FileTree) (config : Config)
    (source : Schema.Source) : Except Fault Session := do
  let settings ← config.capnp.require "command"
  let found ← surroundings.runner.finds settings.command
  return {
    channel := Log.Channel.initial.configure config.verbose.isTruthy
    preamble := preamble settings.command found
    progress := Generation.run ⟨config, source, .preserve, surroundings.runner⟩ tree }

/-- Acts upon a request that names a schema. -/
def serve (surroundings : Surroundings) (tree : FileTree) (request : Request)
    (path : Text) : Except Failure Session := do
  let config ← request.settings tree
  let source ← readSource tree path
  (session surroundings tree config source).mapError .unhandled

/-- Runs the command to its end. -/
def conclude (surroundings : Surroundings) (tree : FileTree) : Conclusion :=
  match decision tree surroundings.environment surroundings.arguments with
  | .help => .help
  | .objected (.misuse fault) => .misused fault
  | .objected (.unhandled fault) => .failed (.unhandled fault)
  | .accepted request =>
      match request.source with
      | none => .usage
      | some path =>
          match serve surroundings tree request path with
          | .error failure => .failed failure
          | .ok session => .ran session

namespace Session

/-- What the log tells about a file that was generated. -/
def wroteRecord (artifact : Path) : Log.Record :=
  ⟨.info, "Wrote " ++ artifact.text⟩

/-- The exit status after a run. -/
def exitStatus (session : Session) : Nat :=
  match session.progress.result with
  | .error _ => 1
  | .ok outcome => if outcome.error.isSome then 1 else 0

/-- What is written to the standard error stream at the end of a run. -/
def closing (session : Session) : String :=
  match session.progress.result with
  | .error _ => ""
  | .ok outcome =>
      match outcome.raise with
      | .error error => Echo.error error.message
      | .ok _ => (session.channel.writeAll (outcome.artifacts.map wroteRecord)).shown

/-- Everything that is written to the standard error stream. -/
def errors (session : Session) : String :=
  (session.channel.writeAll (session.preamble ++ session.progress.log)).shown ++
    session.closing

/-- The fault that nobody has dealt with. -/
def fault? (session : Session) : Option Fault :=
  match session.progress.result with
  | .error fault => some fault
  | .ok _ => none

end Session

namespace Conclusion

/-- The exit status of the command. -/
def exitStatus : Conclusion → Nat
  | .help => 0
  | .usage => 1
  | .misused _ => 2
  | .failed _ => 1
  | .ran session => session.exitStatus

/-- What the command writes to the standard output stream. -/
def output : Conclusion → String
  | .help => CommandLine.help
  | .usage | .misused _ | .failed _ | .ran _ => ""

/-- What the command writes to the standard error stream. -/
def errors : Conclusion → String
  | .help => ""
  | .usage => (CommandLine.usage (.string "caps")).shown
  | .misused fault => fault.text
  | .failed (.diagnostic message) => Echo.error message
  | .failed (.unhandled _) => ""
  | .ran session => session.errors

/-- The fault that nobody has dealt with. -/
def fault? : Conclusion → Option Fault
  | .failed (.unhandled fault) => some fault
  | .ran session => session.fault?
  | .help | .usage | .misused _ | .failed (.diagnostic _) => none

/-- The commands that were launched. -/
def launches : Conclusion → List Launch
  | .ran session => session.progress.launches
  | .help | .usage | .misused _ | .failed _ => []

/-- The file tree at the end, given the one before. -/
def tree (before : FileTree) : Conclusion → FileTree
  | .ran session => session.progress.tree
  | .help | .usage | .misused _ | .failed _ => before

end Conclusion
end CommandLine
end SchemaCodegen
