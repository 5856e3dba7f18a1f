import SchemaCodegen.CommandLine.Echo
import SchemaCodegen.Text.Quoted
import SchemaCodegen.Text.Utf8

/-!
# Misuse of the command

A command line that does not fit the options is answered with a message.  Most
messages come with a hint at the help text; those about the value of an option
do not.
-/

namespace SchemaCodegen
namespace CommandLine

/-- What is wrong with a command line. -/
inductive UsageFault where
  /-- No option is spelled like that. -/
  | unknownOption (spelling : Text)
  /-- The command line ends where the value of an option should stand. -/
  | missingValue (spelling : Text)
  /-- A flag is given a value. -/
  | unexpectedValue (spelling : Text)
  /-- Some arguments belong to no option. -/
  | extraArguments (arguments : List Text)
  /-- The settings file is not there. -/
  | missingFile (path : Text)
  /-- The settings file is a directory. -/
  | directory (path : Text)
deriving DecidableEq, Repr

namespace UsageFault

/-- What the user is told about the value of the option for the settings file. -/
def invalidConfig (path : Text) (complaint : String) : Text :=
  "Invalid value for '--config' / '-c': File " ++ Quoted.quote (Utf8.replaceUndecodable path) ++
    " " ++ complaint

/-- The message for the user. -/
def message : UsageFault → Text
  | .unknownOption spelling => "No such option " ++ Quoted.quote spelling ++ "."
  | .missingValue spelling =>
      "Option " ++ Quoted.quote spelling ++ " requires an argument."
  | .unexpectedValue spelling =>
      "Option " ++ Quoted.quote spelling ++ " does not take a value."
  | .extraArguments arguments =>
      "Got unexpected extra argument" ++ (if arguments.length = 1 then "" else "s") ++
        " (" ++ List.intercalate " " arguments ++ ")"
  | .missingFile path => invalidConfig path "does not exist."
  | .directory path => invalidConfig path "is a directory."

/-- Whether the message comes with a hint at the help text. -/
def hasHint : UsageFault → Bool
  | .missingValue _ | .unexpectedValue _ => false
  | .unknownOption _ | .extraArguments _ | .missingFile _ | .directory _ => true

/-- The hint at the help text. -/
def hint : String :=
  "Usage: caps [OPTIONS]\nTry 'caps --help' for help.\n\n"

/-- Everything that is written about the misuse. -/
def text (fault : UsageFault) : String :=
  (if fault.hasHint then hint else "") ++ Echo.error fault.message

end UsageFault
end CommandLine
end SchemaCodegen
