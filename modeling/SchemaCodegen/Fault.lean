import SchemaCodegen.FileTree.Fault
import SchemaCodegen.Json.Literal
import SchemaCodegen.Json.Reader
import SchemaCodegen.Text.Utf8

/-!
# Faults

Everything that can go wrong outside the generators, each cause with its message
and with the category under which a caller may handle it.
-/

namespace SchemaCodegen

open Json (Value)

/-- A cause of failure. -/
inductive Fault where
  /-- A path cannot be used. -/
  | access (fault : AccessFault)
  /-- A file is not valid UTF-8. -/
  | undecodable (fault : Utf8.DecodeFault)
  /-- A text is not valid Unicode. -/
  | unencodable (fault : Utf8.EncodeFault)
  /-- A text is not valid JSON. -/
  | malformedJson (fault : Json.ReadFault)
  /-- A value of the given kind stands where settings are needed. -/
  | noSetting (kind : Value.Kind) (setting : String)
  /-- A section of the settings is missing. -/
  | noSection (name : String)
  /-- A section of the settings has no setting of that name. -/
  | unknownSetting (group : String) (key : Text)
  /-- A setting is named as the section itself. -/
  | selfSetting (group : String)
  /-- A setting follows from others and cannot be given. -/
  | derivedSetting (name : String)
  /-- A member names the list of references to the settings, which cannot be given. -/
  | references
  /-- A value of the given kind stands where the class of the settings is told. -/
  | notClass (kind : Value.Kind)
  /-- A value of the given kind stands where all settings are told at once. -/
  | notMembers (kind : Value.Kind)
  /-- No renaming mode has that name. -/
  | unknownMode (name : Value)
  /-- No state of a run has that name. -/
  | unknownState (name : Value)
  /-- A value of the given kind stands where text is appended. -/
  | notText (kind : Value.Kind)
  /-- A value of the given kind stands where a path is needed. -/
  | notPath (kind : Value.Kind)
  /-- A word of a command line cannot be handed over. -/
  | unusableWord (fault : HandoverFault)
  /-- A command line without a command has failed. -/
  | emptyCommand
  /-- A transformation of a text has failed. -/
  | transformation (message : Text)
deriving DecidableEq, Repr

namespace Fault

/-- The message for the user. -/
def message : Fault → Text
  | .access fault => fault.message
  | .undecodable fault => fault.message
  | .unencodable fault => fault.message
  | .malformedJson fault => fault.message
  | .noSetting kind setting =>
      "'" ++ kind.name ++ "' object has no attribute '" ++ setting ++ "'"
  | .noSection name => "'PipelineConfig' object has no attribute '" ++ name ++ "'"
  | .unknownSetting group key =>
      group ++ ".__init__() got an unexpected keyword argument '" ++ key ++ "'"
  | .selfSetting group =>
      group ++ ".__init__() got multiple values for argument 'self'"
  | .derivedSetting name =>
      "property '" ++ name ++ "' of 'PipelineConfig' object has no setter"
  | .references => "attribute '__weakref__' of 'PipelineConfig' objects is not writable"
  | .notClass kind => "__class__ must be set to a class, not '" ++ kind.name ++ "' object"
  | .notMembers kind => "__dict__ must be set to a dictionary, not a '" ++ kind.name ++ "'"
  | .unknownMode name => name.literal ++ " is not a valid DisambiguationMode"
  | .unknownState name => name.literal ++ " is not a valid PipelineState"
  | .notText kind => "can only concatenate str (not \"" ++ kind.name ++ "\") to str"
  | .notPath kind =>
      "expected str, bytes or os.PathLike object, not " ++ kind.name
  | .unusableWord fault => fault.message
  | .emptyCommand => "tuple index out of range"
  | .transformation message => message

/-- The categories of faults. -/
inductive Category where
  /-- A request to the operating system is refused. -/
  | system (number : Int)
  /-- Bytes are not valid UTF-8. -/
  | decoding
  /-- A text is not valid Unicode. -/
  | encoding
  /-- A value of the right kind is not acceptable. -/
  | value
  /-- A value is of the wrong kind. -/
  | kind
  /-- Something is missing from a value, or cannot be set on it. -/
  | attribute
  /-- A list is too short. -/
  | index
  /-- Something is nested too deeply. -/
  | depth
  /-- A transformation has failed. -/
  | transformation
deriving DecidableEq, Repr

/-- The category of a text that cannot be handed over. -/
def categoryOfHandover : HandoverFault → Category
  | .unencodable _ => .encoding
  | .nul => .value

/-- The category of a fault. -/
def category : Fault → Category
  | .access (.unusable fault) => categoryOfHandover fault
  | .access .tooDeep => .depth
  | .access (.refused refusal _ _) => .system refusal.number
  | .undecodable _ => .decoding
  | .unencodable _ => .encoding
  | .malformedJson (.tooDeep _) => .depth
  | .malformedJson _ => .value
  | .noSetting _ _ => .attribute
  | .noSection _ => .attribute
  | .unknownSetting _ _ => .kind
  | .selfSetting _ => .kind
  | .derivedSetting _ => .attribute
  | .references => .attribute
  | .notClass _ => .kind
  | .notMembers _ => .kind
  | .unknownMode _ => .value
  | .unknownState _ => .value
  | .notText _ => .kind
  | .notPath _ => .kind
  | .unusableWord fault => categoryOfHandover fault
  | .emptyCommand => .index
  | .transformation _ => .transformation

/-- Faults of a file: it cannot be accessed, or its text cannot be decoded or encoded. -/
def isFileFault (fault : Fault) : Bool :=
  match fault.category with
  | .system _ | .decoding | .encoding => true
  | _ => false

end Fault
end SchemaCodegen
