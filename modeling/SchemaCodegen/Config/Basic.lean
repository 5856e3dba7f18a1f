import SchemaCodegen.Path.Basic
import SchemaCodegen.Rename

/-!
# Settings

The settings of a run.  A setting keeps whatever value it was given; what a value
of an unexpected kind means is decided where the setting is used.
-/

namespace SchemaCodegen

open Json (Value)

/-- The settings of the schema compiler. -/
structure CapnpSettings where
  /-- The command to run. -/
  command : Value := .string "capnp"
  /-- The include directory with the codec annotations. -/
  schemaDir : Value := .string "."
  /-- The include directory with the schemas of the Go plugin. -/
  goCapnpDir : Value := .string "vendor/github.com/glycerine/go-capnproto"
  /-- The plugin that writes plain structs. -/
  plainPlugin : Value := .string "pgo"
  /-- The plugin that writes Cap'n Proto bindings. -/
  codecPlugin : Value := .string "go"
deriving DecidableEq, Repr

/-- The settings of the MessagePack generator. -/
structure MsgpSettings where
  /-- The command to run. -/
  command : Value := .string "msgp"
  /-- Whether tests are generated too. -/
  generateTests : Value := .bool false
deriving DecidableEq, Repr

/-- A group of settings, or what stands in its place. -/
inductive Section (α : Type) where
  /-- The settings of the group. -/
  | given (settings : α)
  /-- A value without settings. -/
  | other (value : Value)
  /-- Nothing, where all settings were told at once and the named group was not. -/
  | missing (name : String)
deriving DecidableEq, Repr

/-- A renaming mode, or a value that stands in its place. -/
inductive ModeSetting where
  /-- The mode. -/
  | given (mode : Rename.Mode)
  /-- A value that was not read as a mode. -/
  | other (value : Value)
deriving DecidableEq, Repr

/-- The settings of a run. -/
structure Config where
  /-- The directory that generated files are written to. -/
  outputDir : Value := .string "."
  /-- Whether the log tells the details. -/
  verbose : Value := .bool false
  /-- How declared names are recognised in generated text. -/
  mode : ModeSetting := .given .anywhere
  /-- What is put behind declared names. -/
  suffix : Value := .string Rename.defaultSuffix
  /-- The settings of the schema compiler. -/
  capnp : Section CapnpSettings := .given {}
  /-- The settings of the MessagePack generator. -/
  msgp : Section MsgpSettings := .given {}
deriving DecidableEq, Repr

namespace Section

/-- The settings of a group, of which the named one is needed. -/
def require {α : Type} (group : Section α) (setting : String) : Except Fault α :=
  match group with
  | .given settings => .ok settings
  | .other value => .error (.noSetting value.kind setting)
  | .missing name => .error (.noSection name)

/-- Whether nothing stands in the place of the group. -/
def isMissing {α : Type} : Section α → Bool
  | .missing _ => true
  | .given _ | .other _ => false

end Section

namespace ModeSetting

/-- The mode that names are renamed in; only the name of the other mode changes it. -/
def mode : ModeSetting → Rename.Mode
  | .given mode => mode
  | .other value =>
      if value = .string Rename.Mode.wholeIdentifier.name then .wholeIdentifier else .anywhere

/-- The mode as a value, if it was read as a mode. -/
def toValue : ModeSetting → Except Fault Value
  | .given mode => .ok (.string mode.name)
  | .other value => .error (.noSetting value.kind "value")

end ModeSetting

namespace Config

/-- Whether files go anywhere else than the working directory. -/
def writesElsewhere (config : Config) : Bool :=
  config.outputDir ≠ .string "."

/-- The output directory, which has to be given as a string. -/
def outputPath (config : Config) : Except Fault Path :=
  match config.outputDir with
  | .string directory => .ok (Path.ofText directory)
  | other => .error (.notPath other.kind)

end Config
end SchemaCodegen
