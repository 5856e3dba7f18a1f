import SchemaCodegen.Command.Generators
import SchemaCodegen.Command.Shell
import SchemaCodegen.FileTree.Access
import SchemaCodegen.Log.Basic

/-!
# Running commands

A launched command changes the file tree and ends with a result.  Launchers tell
how: a child process ends with an exit status or is not started at all; other
launchers give the result themselves.
-/

namespace SchemaCodegen

open Json (Value)

/-- How a command has ended. -/
structure CommandResult where
  /-- The exit status, unless the command was not started. -/
  exitStatus : Option Int
  /-- What went wrong. -/
  error : Option Text
deriving DecidableEq, Repr

namespace CommandResult

/-- A command has succeeded when nothing went wrong and its status is zero. -/
def ok (result : CommandResult) : Bool :=
  result.error.isNone && result.exitStatus == some 0

end CommandResult

/-- How a child process ends. -/
inductive Ending where
  /-- It exits with a status. -/
  | exited (status : Int)
  /-- It is not started. -/
  | notStarted (error : SystemError)
deriving DecidableEq, Repr

namespace Ending

/-- The result of a command, given the program that was run. -/
def result (program : Value) : Ending → CommandResult
  | .notStarted error => ⟨none, some error.message⟩
  | .exited status =>
      if status = 0 then ⟨some 0, none⟩
      else
        ⟨some status,
          some (program.display ++ " exited with status " ++ toString status)⟩

/-- The result of a command line, which has to name a program when it fails. -/
def resultOf (words : List Value) (ending : Ending) : Except Fault CommandResult :=
  match words, ending with
  | program :: _, ending => .ok (ending.result program)
  | [], .exited status =>
      if status = 0 then .ok ⟨some 0, none⟩ else .error .emptyCommand
  | [], .notStarted error => .ok ⟨none, some error.message⟩

end Ending

/-- A file or directory that a command leaves behind. -/
structure Deposit where
  /-- Where it lies. -/
  path : Path
  /-- The bytes of the file, or nothing for a directory. -/
  content : Option (List UInt8)
deriving DecidableEq, Repr

/-- The tree after a command has left its files behind. -/
def Deposit.installAll (deposits : List Deposit) (tree : FileTree) : FileTree :=
  deposits.foldl (fun tree deposit => tree.install deposit.path deposit.content) tree

/-- The execution of a command: the files it writes first, and how it ends. -/
structure Execution where
  /-- What the command writes. -/
  deposits : List Deposit
  /-- How it ends. -/
  ending : Ending
deriving DecidableEq, Repr

/-- An execution that does nothing and succeeds. -/
def Execution.idle : Execution :=
  ⟨[], .exited 0⟩

/-- A launched command. -/
structure Launch where
  /-- The words of its command line. -/
  words : List Value
  /-- Whether its standard output is forwarded; any value counts as yes or no. -/
  forward : Value
deriving DecidableEq, Repr

namespace Launch

/-- Whether the standard output of the command is discarded. -/
def discardsOutput (launch : Launch) : Bool :=
  !launch.forward.isTruthy

/-- What the log tells before a child process is started. -/
def record (launch : Launch) : Log.Record :=
  ⟨.debug, "Executing: " ++ Shell.commandLine launch.words⟩

end Launch

/-- What a launch does to the tree, and its result. -/
abbrev Effect := FileTree → FileTree × CommandResult

/-- Runs commands. -/
structure Launcher where
  /-- Whether each command is told to the log first. -/
  isEchoing : Bool
  /-- The effect of a command, given how many were launched before it. -/
  effect : Nat → Command → Effect

namespace Launcher

/-- Runs commands as the given executions tell; later ones are idle. -/
def ofExecutions (executions : List Execution) : Launcher where
  isEchoing := true
  effect index command tree :=
    let execution := executions.getD index .idle
    (Deposit.installAll execution.deposits tree, execution.ending.result command.program)

/-- Runs commands with given effects; later ones do nothing and succeed. -/
def ofResults (results : List (List Deposit × CommandResult)) : Launcher where
  isEchoing := false
  effect index _ tree :=
    let result := results.getD index ([], ⟨some 0, none⟩)
    (Deposit.installAll result.1 tree, result.2)

/-- Runs no command: each one ends like a program that is not installed. -/
def missing : Launcher where
  isEchoing := true
  effect _ command tree :=
    let refusal : Refusal := .noEntry
    let error : SystemError :=
      ⟨refusal.number, refusal.reason, some command.program.display, none⟩
    (tree, (Ending.notStarted error).result command.program)

end Launcher
end SchemaCodegen
