import SchemaCodegen.Artifact.Naming
import SchemaCodegen.Log.Basic

/-!
# Outcomes of a run

A run enters states one after the other and may be aborted once something has
failed.  The outcome keeps the history of states, the artifacts of the completed
stages and the error of the last abort.
-/

namespace SchemaCodegen

open Json (Value)

/-- The states of a run. -/
inductive State where
  /-- Nothing has been generated. -/
  | init
  /-- The plain structs are generated. -/
  | primaryGenerated
  /-- The bindings are generated and renamed. -/
  | disambiguated
  /-- The encoders are generated. -/
  | secondaryGenerated
  /-- Everything that the schema asks for is there. -/
  | done
  /-- The run has stopped at a failure. -/
  | aborted
deriving DecidableEq, Repr

namespace State

/-- The name of a state. -/
def name : State → String
  | .init => "init"
  | .primaryGenerated => "primary_generated"
  | .disambiguated => "disambiguated"
  | .secondaryGenerated => "secondary_generated"
  | .done => "done"
  | .aborted => "aborted"

/-- All states. -/
def all : List State :=
  [.init, .primaryGenerated, .disambiguated, .secondaryGenerated, .done, .aborted]

/-- The state with the given name. -/
def ofValue (value : Value) : Except Fault State :=
  match all.find? fun state => value = .string state.name with
  | some state => .ok state
  | none => .error (.unknownState value)

/-- Every state is named by its own name. -/
@[simp]
theorem ofValue_name (state : State) : ofValue (.string state.name) = .ok state := by
  cases state <;> rfl

end State

/-- The failure of a run. -/
structure RunError where
  /-- What has failed. -/
  cause : Text
  /-- Why it has failed, if that is known. -/
  detail : Option Text
  /-- The last state before the failure. -/
  state : State
deriving DecidableEq, Repr

/-- The message for the user: an empty detail is left out. -/
def RunError.message (error : RunError) : Text :=
  match error.detail with
  | none => error.cause
  | some detail =>
      if detail.isEmpty then error.cause else error.cause ++ ": " ++ detail

/-- What has become of a run. -/
structure Outcome where
  /-- The codecs that the schema asks for. -/
  directives : Schema.Directives
  /-- The states that were entered, in order. -/
  history : List State
  /-- The files of the completed stages. -/
  artifacts : List Path
  /-- The failure, once the run is aborted. -/
  error : Option RunError
deriving DecidableEq, Repr

namespace Outcome

/-- The outcome before anything has happened. -/
def start (directives : Schema.Directives) : Outcome :=
  ⟨directives, [.init], [], none⟩

/-- The state that was entered last. -/
def state (outcome : Outcome) : State :=
  outcome.history.getLastD .init

/-- Whether the run has come to its end. -/
def ok (outcome : Outcome) : Bool :=
  outcome.state == .done

/-- Enters a state. -/
def enter (outcome : Outcome) (state : State) : Outcome :=
  { outcome with history := outcome.history ++ [state] }

/-- What the log tells when a state is entered. -/
def enterRecord (outcome : Outcome) (state : State) : Log.Record :=
  ⟨.debug, "Pipeline state: " ++ outcome.state.name ++ " -> " ++ state.name⟩

/-- The error of an abort in the present state. -/
def errorOf (outcome : Outcome) (cause : Text) (detail : Option Text) : RunError :=
  ⟨cause, detail, outcome.state⟩

/-- Aborts the run. -/
def abort (outcome : Outcome) (cause : Text) (detail : Option Text) : Outcome :=
  { outcome with
    history := outcome.history ++ [.aborted]
    error := some (outcome.errorOf cause detail) }

/-- What the log tells when the run is aborted. -/
def abortRecord (outcome : Outcome) (cause : Text) (detail : Option Text) :
    Log.Record :=
  ⟨.debug, "Pipeline aborted in state " ++ outcome.state.name ++ ": " ++
    (outcome.errorOf cause detail).message⟩

/-- Fails with the error of the run, if there is one. -/
def raise (outcome : Outcome) : Except RunError Unit :=
  match outcome.error with
  | none => .ok ()
  | some error => .error error

/-- Adds the file of a completed stage. -/
def addArtifact (outcome : Outcome) (path : Path) : Outcome :=
  { outcome with artifacts := outcome.artifacts ++ [path] }

end Outcome
end SchemaCodegen
