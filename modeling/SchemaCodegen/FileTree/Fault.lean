import SchemaCodegen.Text.Handover
import SchemaCodegen.Text.Quoted

/-!
# Faults of the file system

A request to the file system is refused for a reason that has a number and a
wording of its own.  The message names the paths of the request.
-/

namespace SchemaCodegen

/-- An error that the operating system reports. -/
structure SystemError where
  /-- The number of the error. -/
  number : Int
  /-- Its wording. -/
  reason : String
  /-- The path of the request, if there is one. -/
  path : Option Text
  /-- The second path of the request, if there is one. -/
  target : Option Text
deriving DecidableEq, Repr

/-- The message for the user. -/
def SystemError.message (error : SystemError) : String :=
  let quoted := error.path.elim "" fun path => ": " ++ Quoted.quote path
  let target := error.target.elim "" fun path => " -> " ++ Quoted.quote path
  "[Errno " ++ toString error.number ++ "] " ++ error.reason ++ quoted ++ target

/-- Why the file system refuses a request. -/
inductive Refusal where
  /-- A name on the way is missing. -/
  | noEntry
  /-- A directory in use cannot be replaced. -/
  | busy
  /-- The name is taken. -/
  | taken
  /-- A name on the way is not that of a directory. -/
  | notDirectory
  /-- The name is that of a directory. -/
  | isDirectory
  /-- A name, or the whole path, has too many bytes. -/
  | nameTooLong
deriving DecidableEq, Repr

namespace Refusal

/-- The number of a refusal. -/
def number : Refusal → Int
  | .noEntry => 2
  | .busy => 16
  | .taken => 17
  | .notDirectory => 20
  | .isDirectory => 21
  | .nameTooLong => 36

/-- The wording of a refusal. -/
def reason : Refusal → String
  | .noEntry => "No such file or directory"
  | .busy => "Device or resource busy"
  | .taken => "File exists"
  | .notDirectory => "Not a directory"
  | .isDirectory => "Is a directory"
  | .nameTooLong => "File name too long"

end Refusal

/-- Why a path cannot be used. -/
inductive AccessFault where
  /-- The operating system does not take the path. -/
  | unusable (fault : HandoverFault)
  /-- Too many directories on the way are missing. -/
  | tooDeep
  /-- The file system refuses the request. -/
  | refused (refusal : Refusal) (path : Text) (target : Option Text)
deriving DecidableEq, Repr

/-- The message for the user. -/
def AccessFault.message : AccessFault → String
  | .unusable fault => fault.message
  | .tooDeep => "maximum recursion depth exceeded while calling a Python object"
  | .refused refusal path target =>
      SystemError.message ⟨refusal.number, refusal.reason, some path, target⟩

end SchemaCodegen
