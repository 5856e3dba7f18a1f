import SchemaCodegen.Command.Launch
import SchemaCodegen.Command.SearchPath

/-!
# Runners

A runner looks for commands and runs them.  One that starts child processes hands the
words of each command to the operating system first: a word that it does not take is a
fault, and nothing is started then.
-/

namespace SchemaCodegen

open Json (Value)

namespace Command

/-- Why a text cannot be a word of a command, if it cannot. -/
def wordFault? (word : Text) : Option Fault :=
  word.handoverFault?.map .unusableWord

/-- Why a command cannot be started, if it cannot: the program is looked at first. -/
def startFault? (command : Command) : Option Fault :=
  match command.program with
  | .string program => (program :: command.arguments).findSome? wordFault?
  | other => some (.notPath other.kind)

end Command

/-- Looks for commands and runs them. -/
structure Runner extends Launcher where
  /-- Whether a command can be found. -/
  finds : Value → Except Fault Bool
  /-- Why a command is not launched, if it is not. -/
  refuses : Command → Option Fault

namespace Runner

/-- Launches every command and finds every one. -/
def ofLauncher (launcher : Launcher) : Runner :=
  { launcher with
    finds := fun _ => .ok true
    refuses := fun _ => none }

/-- Starts child processes, which do what the launcher tells. -/
def subprocess (searchPath : SearchPath) (processes : Launcher) : Runner :=
  { processes with
    finds := searchPath.finds
    refuses := Command.startFault? }

end Runner
end SchemaCodegen
