import SchemaCodegen.CommandLine.Application

/-!
# Reaching the run

The generators run when the command line is accepted, a schema is named, the settings
and the schema can be read and the schema compiler has settings and can be looked for.
Then the conclusion is the run with these settings on this schema.
-/

namespace SchemaCodegen
namespace CommandLine

open Json (Value)

/-- A command line that is acted upon, with its items. -/
structure Accepts (tree : FileTree) (arguments : List Text) (items : List Item) : Prop where
  /-- It can be read. -/
  read : readArguments arguments = .ok items
  /-- It does not ask for help. -/
  noHelp : hasFlag items .help = false
  /-- Nothing is objected to it. -/
  unobjected : objection? tree items = none

theorem decision_eq_accepted_iff
    {tree : FileTree}
    {environment : Environment}
    {arguments : List Text}
    {request : Request} :
    decision tree environment arguments = .accepted request ↔
      ∃ items, Accepts tree arguments items ∧ request = Request.ofItems environment items := by
  unfold decision
  constructor
  · intro accepted
    split at accepted
    case h_1 => simp at accepted
    case h_2 items read =>
      split at accepted
      case isTrue => simp at accepted
      case isFalse noHelp =>
        split at accepted
        case h_1 => simp at accepted
        case h_2 unobjected =>
          exact ⟨items, ⟨read, by simpa using noHelp, unobjected⟩,
            (Decision.accepted.inj accepted).symm⟩
  · rintro ⟨items, ⟨read, noHelp, unobjected⟩, rfl⟩
    simp [read, noHelp, unobjected]

/-- The run of the generators, and what is told around it. -/
def sessionOf
    (surroundings : Surroundings)
    (tree : FileTree)
    (config : Config)
    (compiler : Value)
    (found : Bool)
    (source : Schema.Source) : Session where
  channel := Log.Channel.initial.configure config.verbose.isTruthy
  preamble := preamble compiler found
  progress := Generation.run ⟨config, source, .preserve, surroundings.runner⟩ tree

/-- Telling about a failure in another way does not change a success. -/
theorem mapError_eq_ok_iff
    {α δ ε : Type}
    {result : Except ε α}
    {change : ε → δ}
    {value : α} :
    result.mapError change = .ok value ↔ result = .ok value := by
  cases result with
  | error failure => exact ⟨nofun, nofun⟩
  | ok other => constructor <;> exact fun same => congrArg _ (Except.ok.inj same)

section Served

variable
  {surroundings : Surroundings}
  {tree : FileTree}
  {result : Session}

theorem session_eq_ok_iff
    {config : Config}
    {source : Schema.Source} :
    session surroundings tree config source = .ok result ↔
      ∃ compiler found, config.capnp = .given compiler ∧
        surroundings.runner.finds compiler.command = .ok found ∧
        result = sessionOf surroundings tree config compiler.command found source := by
  unfold session
  cases config.capnp with
  | other | missing => simp [Section.require, bind, Except.bind]
  | given compiler =>
      cases looked : surroundings.runner.finds compiler.command with
      | error fault => simp [Section.require, looked, bind, Except.bind]
      | ok found =>
          simp [Section.require, looked, sessionOf, bind, Except.bind, pure, Except.pure,
            eq_comm, -Bool.exists_bool]

theorem serve_eq_ok_iff
    {request : Request}
    {path : Text} :
    serve surroundings tree request path = .ok result ↔
      ∃ config source compiler found, request.settings tree = .ok config ∧
        readSource tree path = .ok source ∧ config.capnp = .given compiler ∧
        surroundings.runner.finds compiler.command = .ok found ∧
        result = sessionOf surroundings tree config compiler.command found source := by
  unfold serve
  rcases request.settings tree with failure | config
  · simp [bind, Except.bind]
  · rcases readSource tree path with failure | source
    · simp [bind, Except.bind]
    · simp [bind, Except.bind, mapError_eq_ok_iff, session_eq_ok_iff, -Bool.exists_bool]

theorem conclude_eq_ran_iff_serve :
    conclude surroundings tree = .ran result ↔
      ∃ items path, Accepts tree surroundings.arguments items ∧
        (Request.ofItems surroundings.environment items).source = some path ∧
        serve surroundings tree (Request.ofItems surroundings.environment items) path =
          .ok result := by
  unfold conclude
  constructor
  · intro ran
    split at ran
    case h_1 | h_2 | h_3 => simp at ran
    case h_4 request accepted =>
      obtain ⟨items, accepts, rfl⟩ := decision_eq_accepted_iff.mp accepted
      split at ran
      case h_1 => simp at ran
      case h_2 path named =>
        split at ran
        case h_1 => simp at ran
        case h_2 served =>
          rw [Conclusion.ran.inj ran] at served
          exact ⟨items, path, accepts, named, served⟩
  · rintro ⟨items, path, accepts, named, served⟩
    have accepted :
        decision tree surroundings.environment surroundings.arguments =
          .accepted (Request.ofItems surroundings.environment items) :=
      decision_eq_accepted_iff.mpr ⟨items, accepts, rfl⟩
    simp [accepted, named, served]

/-- A run that is concluded with is a run of the generators. -/
theorem exists_run_of_conclude
    (ran : conclude surroundings tree = .ran result) :
    ∃ job, result.progress = Generation.run job tree := by
  obtain ⟨items, path, _, _, served⟩ := conclude_eq_ran_iff_serve.mp ran
  obtain ⟨config, source, compiler, found, _, _, _, _, rfl⟩ := serve_eq_ok_iff.mp served
  exact ⟨_, rfl⟩

end Served
end CommandLine
end SchemaCodegen
