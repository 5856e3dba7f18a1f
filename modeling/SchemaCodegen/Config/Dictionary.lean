import SchemaCodegen.Config.Basic

/-!
# Settings as a JSON object

Settings are read from the members of an object, one after the other, on top of
the defaults.  Members that name no setting are ignored at the top and refused
inside a group.  Three more keys at the top belong to the record of the settings
itself: two of them are refused, and the third tells all settings at once.
-/

namespace SchemaCodegen

open Json (Value)

namespace CapnpSettings

/-- Gives one setting a value. -/
def set (settings : CapnpSettings) (key : Text) (value : Value) :
    Except Fault CapnpSettings :=
  if key = "command" then .ok { settings with command := value }
  else if key = "schema_dir" then .ok { settings with schemaDir := value }
  else if key = "go_capnp_dir" then .ok { settings with goCapnpDir := value }
  else if key = "plain_plugin" then .ok { settings with plainPlugin := value }
  else if key = "codec_plugin" then .ok { settings with codecPlugin := value }
  else if key = "self" then .error (.selfSetting "CapnpConfig")
  else .error (.unknownSetting "CapnpConfig" key)

/-- The settings given by the members of an object, on top of the defaults. -/
def ofMembers (members : List (Text × Value)) : Except Fault CapnpSettings :=
  members.foldlM (fun settings member => settings.set member.1 member.2) {}

/-- The members that give all settings. -/
def toMembers (settings : CapnpSettings) : List (Text × Value) :=
  [("command", settings.command), ("schema_dir", settings.schemaDir),
    ("go_capnp_dir", settings.goCapnpDir), ("plain_plugin", settings.plainPlugin),
    ("codec_plugin", settings.codecPlugin)]

end CapnpSettings

namespace MsgpSettings

/-- Gives one setting a value. -/
def set (settings : MsgpSettings) (key : Text) (value : Value) :
    Except Fault MsgpSettings :=
  if key = "command" then .ok { settings with command := value }
  else if key = "generate_tests" then .ok { settings with generateTests := value }
  else if key = "self" then .error (.selfSetting "MsgpConfig")
  else .error (.unknownSetting "MsgpConfig" key)

/-- The settings given by the members of an object, on top of the defaults. -/
def ofMembers (members : List (Text × Value)) : Except Fault MsgpSettings :=
  members.foldlM (fun settings member => settings.set member.1 member.2) {}

/-- The members that give all settings. -/
def toMembers (settings : MsgpSettings) : List (Text × Value) :=
  [("command", settings.command), ("generate_tests", settings.generateTests)]

end MsgpSettings

namespace Section

/-- The group that a value gives: its settings if it is an object, else the value itself. -/
def ofValue {α : Type} (ofMembers : List (Text × Value) → Except Fault α)
    (value : Value) : Except Fault (Section α) :=
  match value with
  | .object members => (ofMembers members).map .given
  | plain => .ok (.other plain)

end Section

namespace Config

/-- Gives one setting a value; keys that name no setting are ignored. -/
def assign (config : Config) (key : Text) (value : Value) : Except Fault Config :=
  if key = "output_dir" then .ok { config with outputDir := value }
  else if key = "verbose" then .ok { config with verbose := value }
  else if key = "disambiguation" then
    (Rename.Mode.ofValue value).map fun mode => { config with mode := .given mode }
  else if key = "suffix" then .ok { config with suffix := value }
  else if key = "capnp" then
    (Section.ofValue CapnpSettings.ofMembers value).map fun capnp => { config with capnp }
  else if key = "msgp" then
    (Section.ofValue MsgpSettings.ofMembers value).map fun msgp => { config with msgp }
  else if key = "has_custom_output_dir" then .error (.derivedSetting "has_custom_output_dir")
  else .ok config

/--
The settings whose record consists of the given members alone.  A value is taken as it
is; a setting that is left out has its default, but a group has none.
-/
def ofRecord (members : List (Text × Value)) : Config where
  outputDir := (members.lookup ("output_dir" : Text)).getD (outputDir {})
  verbose := (members.lookup ("verbose" : Text)).getD (verbose {})
  mode := (members.lookup ("disambiguation" : Text)).elim (mode {}) .other
  suffix := (members.lookup ("suffix" : Text)).getD (suffix {})
  capnp := (members.lookup ("capnp" : Text)).elim (.missing "capnp") .other
  msgp := (members.lookup ("msgp" : Text)).elim (.missing "msgp") .other

/-- Whether a key names a group that is missing. -/
def lacks (config : Config) (key : Text) : Bool :=
  (key = "capnp" && config.capnp.isMissing) || (key = "msgp" && config.msgp.isMissing)

/-- The settings whose record is a value, which has to be an object. -/
def ofRecordValue (value : Value) : Except Fault Config :=
  match value with
  | .object members => .ok (ofRecord members)
  | other => .error (.notMembers other.kind)

/--
Takes one member.  The keys of the record come before those of the settings, and a
missing group is only given by an object.
-/
def set (config : Config) (key : Text) (value : Value) : Except Fault Config :=
  if key = "__weakref__" then .error .references
  else if key = "__class__" then .error (.notClass value.kind)
  else if key = "__dict__" then ofRecordValue value
  else if config.lacks key ∧ value.kind ≠ .object then .ok config
  else config.assign key value

/-- The settings given by a value, on top of the defaults. -/
def ofValue (value : Value) : Except Fault Config :=
  match value with
  | .object members =>
      members.foldlM (fun config member => config.set member.1 member.2) {}
  | other => .error (.noSetting other.kind "items")

/-- The object that gives all settings. -/
def toValue (config : Config) : Except Fault Value :=
  match config.mode.toValue, config.capnp.require "command", config.msgp.require "command" with
  | .error fault, _, _ => .error fault
  | _, .error fault, _ => .error fault
  | _, _, .error fault => .error fault
  | .ok mode, .ok capnp, .ok msgp =>
      .ok (.object
        [("output_dir", config.outputDir), ("verbose", config.verbose),
          ("disambiguation", mode), ("suffix", config.suffix),
          ("capnp", .object capnp.toMembers), ("msgp", .object msgp.toMembers)])

end Config
end SchemaCodegen
