import SchemaCodegen.CommandLine.Arguments
import SchemaCodegen.Config.File

/-!
# Requests

A request is what the arguments and the environment ask for together.  Its paths
are checked one after the other, in the order in which their options first
stand, before any argument too many is refused.
-/

namespace SchemaCodegen
namespace CommandLine

/-- What a command line asks for. -/
structure Request where
  /-- The schema file. -/
  source : Option Text
  /-- The output directory. -/
  outputDir : Option Text
  /-- The settings file. -/
  config : Option Text
  /-- The include directory with the codec annotations. -/
  schemaDir : Option Text
  /-- The include directory with the schemas of the Go plugin. -/
  goCapnpDir : Option Text
  /-- Whether the details of the run are told. -/
  verbose : Bool
  /-- Whether only whole identifiers are renamed. -/
  wholeIdentifiers : Bool
deriving DecidableEq, Repr

/-- The variables of the environment with their values. -/
abbrev Environment := List (String × Text)

/-- The value of an option or else of its variable; an empty variable counts as unset. -/
def valueOf (environment : Environment) (items : List Item) (setting : Setting) :
    Option Text :=
  match lastValue? items setting with
  | some value => some value
  | none =>
      (setting.fallback?.bind fun name => environment.lookup name).filter
        fun value => !value.isEmpty

/-- The request that items and environment make. -/
def Request.ofItems (environment : Environment) (items : List Item) : Request where
  source := valueOf environment items .source
  outputDir := valueOf environment items .outputDir
  config := valueOf environment items .config
  schemaDir := valueOf environment items .schemaDir
  goCapnpDir := valueOf environment items .goCapnpDir
  verbose := hasFlag items .verbose
  wholeIdentifiers := hasFlag items .wholeIdentifiers

/-- Why a command line is not acted upon. -/
inductive Objection where
  /-- The user is told about a misuse. -/
  | misuse (fault : UsageFault)
  /-- Nobody deals with the fault. -/
  | unhandled (fault : Fault)
deriving DecidableEq, Repr

/-- The absolute path of a settings file, with its `..` parts taken back. -/
def configPath (tree : FileTree) (path : Text) : Path :=
  { (Path.ofText path).absolute (tree.workingDirectory.map Utf8.decode) with root := .single }

/-- What is objected to the value of a setting. -/
def objectionTo (tree : FileTree) (setting : Setting) (value : Text) :
    Option Objection :=
  match setting, value.handoverFault? with
  | .schemaDir, _ | .goCapnpDir, _ => none
  | .outputDir, fault? | .source, fault? =>
      fault?.map fun fault => .unhandled (.access (.unusable fault))
  | .config, some fault => some (.unhandled (.access (.unusable fault)))
  | .config, none =>
      match tree.find (configPath tree value) with
      | .error _ => some (.misuse (.missingFile value))
      | .ok .directory => some (.misuse (.directory value))
      | .ok (.file _) => none

/-- What is objected to the items of a command line. -/
def objection? (tree : FileTree) (items : List Item) : Option Objection :=
  let values := (givenSettings items).findSome? fun setting =>
    (lastValue? items setting).bind (objectionTo tree setting)
  match values, extraArguments items with
  | some objection, _ => some objection
  | none, [] => none
  | none, arguments => some (.misuse (.extraArguments arguments))

/-- What is done about a command line. -/
inductive Decision where
  /-- The help text is shown. -/
  | help
  /-- Nothing, because something is objected. -/
  | objected (objection : Objection)
  /-- The request is acted upon. -/
  | accepted (request : Request)
deriving DecidableEq, Repr

/-- Decides about a command line; asking for help comes before any objection to values. -/
def decision (tree : FileTree) (environment : Environment) (arguments : List Text) :
    Decision :=
  match readArguments arguments with
  | .error fault => .objected (.misuse fault)
  | .ok items =>
      if hasFlag items .help then .help
      else
        match objection? tree items with
        | some objection => .objected objection
        | none => .accepted (Request.ofItems environment items)

end CommandLine
end SchemaCodegen
