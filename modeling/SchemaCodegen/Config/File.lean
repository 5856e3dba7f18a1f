import SchemaCodegen.Config.Dictionary
import SchemaCodegen.FileTree.Access
import SchemaCodegen.Text.LineEnding

/-!
# Settings files

Settings are read from a JSON file in UTF-8.  What keeps the file from being read
is told to the user; a text that is valid JSON but no object is a fault of its own.
-/

namespace SchemaCodegen

/-- How the program fails. -/
inductive Failure where
  /-- The user is told what is wrong. -/
  | diagnostic (message : Text)
  /-- Nobody deals with the fault. -/
  | unhandled (fault : Fault)
deriving DecidableEq, Repr

namespace Config

/-- The settings that the bytes of a file give. -/
def ofBytes (bytes : List UInt8) : Except Fault Config :=
  match Utf8.decodeWith .strict bytes with
  | .error fault => .error (.undecodable fault)
  | .ok text =>
      match Json.read ((text.normalizeLineEndings.characters?).getD []) with
      | .error fault => .error (.malformedJson fault)
      | .ok value => ofValue value

/-- The settings in the file that a path names. -/
def ofFile (tree : FileTree) (path : Path) : Except Fault Config :=
  match tree.read path with
  | .error fault => .error (.access fault)
  | .ok bytes => ofBytes bytes

/-- Faults of a settings file that the user is told about. -/
def isReported (fault : Fault) : Bool :=
  match fault.category with
  | .system _ | .decoding | .encoding | .value | .kind => true
  | _ => false

/-- Loads the settings file that a path names. -/
def load (tree : FileTree) (path : Path) : Except Failure Config :=
  match ofFile tree path with
  | .ok config => .ok config
  | .error fault =>
      if isReported fault then
        .error (.diagnostic
          ("failed to load config file " ++ path.text ++ ": " ++ fault.message))
      else .error (.unhandled fault)

end Config
end SchemaCodegen
