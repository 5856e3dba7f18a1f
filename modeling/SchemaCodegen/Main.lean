import SchemaCodegen.CommandLine.Application

/-!
# The program

The outer layer of the command.  It copies the files that the command may look
at into a file tree, runs the command on it and carries out what has changed.
Programs are not started from here: every launch ends like that of a program
that is not installed.
-/

namespace SchemaCodegen
namespace Program

open CommandLine (Request Surroundings conclude)

/-- The places on the way to what a path names, each before those behind it. -/
def placesOn (workingDirectory : Location) (path : Path) : List Location :=
  let start := if path.isAbsolute then [] else workingDirectory
  (List.range (path.parts.length + 1)).map fun count =>
    Path.collapse FileTree.up start ((FileTree.names path).take count)

/-- The spelling of a location. -/
def spelling (location : Location) : String :=
  (Path.mk .single (location.map Utf8.decode)).text.shown

/-- Copies what a location holds into the tree. -/
def copyLocation (tree : FileTree) (location : Location) : IO FileTree := do
  let file := (← IO.currentDir) / spelling location
  if ← file.isDir then
    return tree.insert location .directory
  else if ← file.pathExists then
    return tree.insert location (.file (← IO.FS.readBinFile file).toList)
  else
    return tree

/-- Copies what lies on the way of a path into the tree. -/
def copyPath (tree : FileTree) (path : Path) : IO FileTree :=
  if path.fault?.isSome then return tree
  else (placesOn tree.workingDirectory path).foldlM copyLocation tree

/-- The files that a request names. -/
def namedPaths (request : Request) : List Path :=
  [request.source, request.config].filterMap (Option.map Path.ofText)

/-- The output directory of a request, as far as the settings can be read. -/
def outputPath? (request : Request) (tree : FileTree) : Option Path :=
  match request.settings tree with
  | .error _ => none
  | .ok config => config.outputPath.toOption

/-- Copies everything that a request may look at into the tree. -/
def copyRequest (tree : FileTree) (request : Request) : IO FileTree := do
  let tree ← (namedPaths request).foldlM copyPath tree
  match outputPath? request tree with
  | none => return tree
  | some path => copyPath tree path

/-- Copies everything that a command line may look at into the tree. -/
def copyFiles (surroundings : Surroundings) (tree : FileTree) : IO FileTree :=
  match CommandLine.readArguments surroundings.arguments with
  | .error _ => return tree
  | .ok items => copyRequest tree (Request.ofItems surroundings.environment items)

/-- Carries out the changes between two trees. -/
def carryOut (before after : FileTree) : IO Unit :=
  after.entries.reverse.forM fun (location, entry) => do
    if before.entry? location ≠ some entry then
      match entry with
      | .directory => IO.FS.createDirAll (spelling location)
      | .file content => IO.FS.writeBinFile (spelling location) ⟨content.toArray⟩

/-- The variables of the environment that options fall back on. -/
def environment : IO CommandLine.Environment := do
  let names := ["CAPS_SCHEMA_DIR", "CAPS_GO_CAPNP_DIR"]
  let values ← names.mapM fun name =>
    return (← IO.getEnv name).map fun value => (name, (value : Text))
  return values.filterMap id

/-- Runs the command with its arguments. -/
def run (arguments : List String) : IO UInt32 := do
  let directory ← IO.currentDir
  let surroundings : Surroundings :=
    ⟨arguments.map Text.ofString, ← environment, .subprocess (.only []) .missing⟩
  let start : FileTree := ⟨(Path.ofText directory.toString).parts.map Utf8.encode, []⟩
  let tree ← copyFiles surroundings start
  let conclusion := conclude surroundings tree
  carryOut tree (conclusion.tree tree)
  IO.print conclusion.output
  IO.eprint conclusion.errors
  match conclusion.fault? with
  | none => pure ()
  | some fault => IO.eprintln fault.message.shown
  return conclusion.exitStatus.toUInt32

end Program
end SchemaCodegen

/-- The entry point of the command. -/
def main (arguments : List String) : IO UInt32 :=
  SchemaCodegen.Program.run arguments
