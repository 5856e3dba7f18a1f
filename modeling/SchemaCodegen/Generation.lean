import SchemaCodegen.Command.Runner
import SchemaCodegen.Outcome
import SchemaCodegen.TextFile

/-!
# Running the generators

A run creates the output directory, generates the plain structs, generates and
renames the bindings if the schema asks for them, and generates the encoders if
it asks for those.  The first failure ends the run.  A setting of the wrong kind
is a fault, which ends the run without an outcome.
-/

namespace SchemaCodegen
namespace Generation

open Json (Value)

/-- What has failed when a run is aborted. -/
inductive Cause where
  /-- The output directory cannot be created. -/
  | outputDir
  /-- The schema compiler has failed. -/
  | primary
  /-- The bindings cannot be read or written. -/
  | artifact
  /-- The MessagePack generator has failed. -/
  | secondary
deriving DecidableEq, Repr

/-- The wording of a cause. -/
def Cause.message : Cause → String
  | .outputDir => "failed to create output directory"
  | .primary => "primary generation failed"
  | .artifact => "failed to read/write primary-optional artifact"
  | .secondary => "secondary generation failed"

/-- What a run needs besides the file tree. -/
structure Job where
  /-- The settings. -/
  config : Config
  /-- The schema. -/
  source : Schema.Source
  /-- How the bindings are decoded and encoded. -/
  policy : Utf8.Policy
  /-- How commands are run. -/
  runner : Runner

/-- Whether a run goes on. -/
inductive Status where
  /-- The next stage follows. -/
  | running
  /-- The run has ended with its outcome. -/
  | ended
  /-- The run has ended with a fault. -/
  | faulted (fault : Fault)
deriving DecidableEq, Repr

/-- How far a run has come. -/
structure Progress where
  /-- The file tree. -/
  tree : FileTree
  /-- The outcome so far. -/
  outcome : Outcome
  /-- The commands launched so far. -/
  launches : List Launch
  /-- The log so far. -/
  log : List Log.Record
  /-- Whether the run goes on. -/
  status : Status
deriving DecidableEq, Repr

namespace Progress

/-- Adds a record to the log. -/
def note (progress : Progress) (record : Log.Record) : Progress :=
  { progress with log := progress.log ++ [record] }

/-- Ends the run with a fault. -/
def fail (progress : Progress) (fault : Fault) : Progress :=
  { progress with status := .faulted fault }

/-- Enters a state. -/
def enter (progress : Progress) (state : State) : Progress :=
  { progress.note (progress.outcome.enterRecord state) with
    outcome := progress.outcome.enter state }

/-- Ends the run with an error. -/
def abort (progress : Progress) (cause : Cause) (detail : Option Text) : Progress :=
  { progress.note (progress.outcome.abortRecord cause.message detail) with
    outcome := progress.outcome.abort cause.message detail
    status := .ended }

/-- Completes a stage with its file. -/
def complete (progress : Progress) (artifact : Path) (state : State) : Progress :=
  { progress with outcome := progress.outcome.addArtifact artifact }.enter state

/-- Goes on with a stage unless the run has ended. -/
def andThen (progress : Progress) (stage : Progress → Progress) : Progress :=
  match progress.status with
  | .running => stage progress
  | _ => progress

/-- Launches a command and goes on with its result, unless the runner refuses it. -/
def launch (progress : Progress) (runner : Runner) (command : Command)
    (forward : Value) (next : CommandResult → Progress → Progress) : Progress :=
  let launch : Launch := ⟨command.words, forward⟩
  let noted := if runner.isEchoing then progress.note launch.record else progress
  match runner.refuses command with
  | some fault => noted.fail fault
  | none =>
      let after := runner.effect progress.launches.length command progress.tree
      next after.2
        { noted with tree := after.1, launches := progress.launches ++ [launch] }

end Progress

/-- What the log tells about the schema. -/
def schemaRecord (source : Schema.Source) : Log.Record :=
  ⟨.debug, "Schema " ++ source.name ++ " requests: " ++ source.directives.summary⟩

/-- What the log tells about the renaming. -/
def renameRecord (job : Job) (path : Path) : Log.Record :=
  ⟨.debug, "Adding suffix " ++ job.config.suffix.literal ++ " to " ++
    toString job.source.typeNames.length ++ " type names in " ++ path.text⟩

/-- The run before its first stage. -/
def begin (job : Job) (tree : FileTree) : Progress :=
  { tree
    outcome := Outcome.start job.source.directives
    launches := []
    log := [schemaRecord job.source]
    status := .running }

/-- Creates the output directory. -/
def prepare (outputDir : Path) (progress : Progress) : Progress :=
  match progress.tree.makeDirectories outputDir with
  | (tree, none) => { progress with tree }
  | (tree, some (.refused refusal path target)) =>
      { progress with tree }.abort .outputDir
        (some (AccessFault.refused refusal path target).message)
  | (tree, some fault) => { progress with tree }.fail (.access fault)

/-- Compiles the schema, and goes on if that succeeds. -/
def compile (job : Job) (withCodec : Bool) (next : Progress → Progress)
    (progress : Progress) : Progress :=
  match Command.capnp job.config job.source.path.text withCodec with
  | .error fault => progress.fail fault
  | .ok command =>
      progress.launch job.runner command (.bool true) fun result progress =>
        if result.ok then next progress else progress.abort .primary result.error

/-- Generates the plain structs. -/
def generatePlain (job : Job) (outputDir : Path) : Progress → Progress :=
  compile job false fun progress =>
    progress.complete (Artifact.plain.path outputDir job.source) .primaryGenerated

/-- Renames the declared types in the bindings. -/
def renameBindings (job : Job) (outputDir : Path) (progress : Progress) : Progress :=
  let path := Artifact.capnp.path outputDir job.source
  let noted := progress.note (renameRecord job path)
  let updated :=
    TextFile.update job.policy progress.tree path
      (Rename.renameWith job.config.mode.mode job.config.suffix job.source.typeNames)
  match updated with
  | (tree, .ok _) => { noted with tree }.complete path .disambiguated
  | (tree, .error fault) =>
      if fault.isFileFault then
        { noted with tree }.abort .artifact (some (path.text ++ ": " ++ fault.message))
      else { noted with tree }.fail fault

/-- Generates and renames the bindings, if the schema asks for them. -/
def generateBindings (job : Job) (outputDir : Path) (progress : Progress) : Progress :=
  if job.source.directives.capnp then
    compile job true (renameBindings job outputDir) progress
  else progress

/-- Generates the encoders, if the schema asks for them. -/
def generateEncoders (job : Job) (outputDir : Path) (progress : Progress) : Progress :=
  if job.source.directives.msgp then
    let input := Artifact.plain.path outputDir job.source
    let output := Artifact.msgp.path outputDir job.source
    match Command.msgp job.config input.text output.text with
    | .error fault => progress.fail fault
    | .ok command =>
        progress.launch job.runner command job.config.verbose fun result progress =>
          if result.ok then progress.complete output .secondaryGenerated
          else progress.abort .secondary result.error
  else progress

/-- Comes to the end of the run. -/
def finish (progress : Progress) : Progress :=
  { progress.enter .done with status := .ended }

/-- Runs everything that the schema asks for. -/
def run (job : Job) (tree : FileTree) : Progress :=
  let started := begin job tree
  match job.config.outputPath with
  | .error fault => started.fail fault
  | .ok outputDir =>
      (((started.andThen (prepare outputDir)).andThen (generatePlain job outputDir)).andThen
        (generateBindings job outputDir)).andThen (generateEncoders job outputDir)
        |>.andThen finish

/-- The outcome of a run that has ended, or the fault that has ended it. -/
def Progress.result (progress : Progress) : Except Fault Outcome :=
  match progress.status with
  | .faulted fault => .error fault
  | _ => .ok progress.outcome

end Generation
end SchemaCodegen
