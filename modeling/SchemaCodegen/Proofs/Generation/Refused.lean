import SchemaCodegen.Proofs.Artifact.Naming
import SchemaCodegen.Proofs.Generation.Course

/-!
# Refused launches

A runner may refuse a command before it launches it.  The first command that a run comes to
and that is refused ends the run with a fault; a run that comes to none is the same as if
every command were launched.  So everything that is known of runs that launch every command
holds of each run that returns.
-/

namespace SchemaCodegen

namespace Command

/-- A command can be started when each of its words can be handed over. -/
theorem startFault?_eq_none_iff
    {program : Text}
    {arguments : List Text} :
    startFault? ⟨.string program, arguments⟩ = none ↔
      ∀ word ∈ program :: arguments, word.handoverFault? = none := by
  simp only [startFault?, List.findSome?_eq_none_iff, wordFault?, Option.map_eq_none_iff]

end Command

namespace Generation
namespace TypedJob

/-- Why the first command that a run comes to and that is refused is refused, if there is one. -/
def refusal? (typed : TypedJob) (refuses : Command → Option Fault) (tree : FileTree) :
    Option Fault :=
  (typed.rounds tree).findSome? fun round => refuses (typed.command round.artifact)

section Stages

variable
  {typed : TypedJob}
  {runner : Runner}
  {artifact : Artifact}

/-- A command that is refused may be told to the log, and changes nothing else. -/
theorem produce_of_refused
    {fault : Fault}
    (refuses : runner.refuses (typed.command artifact) = some fault)
    (progress : Progress) :
    ∃ log, typed.produce runner artifact progress =
      { progress with log := log, status := .faulted fault } := by
  simp only [produce, Progress.launch, refuses]
  split <;> exact ⟨_, rfl⟩

theorem produceAll_cons_of_running
    {progress : Progress}
    (running : progress.status = .running)
    (rest : List Artifact) :
    typed.produceAll runner (artifact :: rest) progress =
      typed.produceAll runner rest (typed.produce runner artifact progress) := by
  rw [produceAll, List.foldl_cons, andThen_of_running running, ← produceAll]

/-- A command that is not refused is launched, so the round for it is carried out. -/
theorem produceAll_cons_of_accepted
    {progress : Progress}
    (same : runner.toLauncher = typed.launcher)
    (running : progress.status = .running)
    (accepts : runner.refuses (typed.command artifact) = none)
    (rest : List Artifact) :
    typed.produceAll runner (artifact :: rest) progress =
      typed.produceAll runner rest
        (typed.carryOut (typed.round progress.launches.length artifact progress.tree)
          progress) := by
  have launched : typed.produce runner artifact progress =
      typed.produce (.ofLauncher typed.launcher) artifact progress := by
    simp only [produce, Progress.launch, accepts, Runner.ofLauncher, ← same]
  rw [produceAll_cons_of_running running, launched, produce_eq]

theorem status_produceAll_of_refused
    {fault : Fault}
    {progress : Progress}
    (running : progress.status = .running)
    (refuses : runner.refuses (typed.command artifact) = some fault)
    (rest : List Artifact) :
    (typed.produceAll runner (artifact :: rest) progress).status = .faulted fault := by
  obtain ⟨log, refused⟩ := produce_of_refused refuses progress
  rw [produceAll_cons_of_running running, refused,
    typed.produceAll_of_not_running runner (by simp) rest]

end Stages

namespace Course

variable
  {typed : TypedJob}
  {runner : Runner}
  {artifacts : List Artifact}
  {before after : Progress}
  {rounds : List Round}

/-- A run that comes to no refused command takes the course of its rounds. -/
theorem produceAll_of_accepted
    (course : typed.Course artifacts before rounds after)
    (same : runner.toLauncher = typed.launcher)
    (accepts : ∀ round ∈ rounds, runner.refuses (typed.command round.artifact) = none) :
    typed.produceAll runner artifacts before = after := by
  induction course with
  | finished => rfl
  | @stopped artifact rest round before running round_eq failed =>
      have stopped := (typed.follows_carryOut round running).not_running failed
      subst round_eq
      have acceptsFirst : runner.refuses (typed.command artifact) = none :=
        accepts _ List.mem_cons_self
      rw [produceAll_cons_of_accepted same running acceptsFirst]
      exact typed.produceAll_of_not_running runner stopped rest
  | @continued artifact _ _ _ _ _ running round_eq _ _ inductionHypothesis =>
      subst round_eq
      have acceptsFirst : runner.refuses (typed.command artifact) = none :=
        accepts _ List.mem_cons_self
      rw [produceAll_cons_of_accepted same running acceptsFirst]
      exact inductionHypothesis fun round member =>
        accepts round (List.mem_cons_of_mem _ member)

/-- The first refused command that a run comes to ends it. -/
theorem faulted_produceAll
    {fault : Fault}
    (course : typed.Course artifacts before rounds after)
    (same : runner.toLauncher = typed.launcher)
    (refused : (rounds.findSome? fun round => runner.refuses (typed.command round.artifact)) =
      some fault) :
    (typed.produceAll runner artifacts before).status = .faulted fault := by
  induction course with
  | finished => simp at refused
  | @stopped artifact rest round _ running round_eq _ =>
      rw [List.findSome?_singleton] at refused
      subst round_eq
      exact status_produceAll_of_refused running refused rest
  | @continued artifact rest round _ _ _ running round_eq _ _ inductionHypothesis =>
      rw [List.findSome?_cons] at refused
      subst round_eq
      split at refused
      case h_1 refuses =>
        rw [refused] at refuses
        exact status_produceAll_of_refused running refuses rest
      case h_2 accepts =>
        have acceptsFirst : runner.refuses (typed.command artifact) = none := accepts
        rw [produceAll_cons_of_accepted same running acceptsFirst]
        exact inductionHypothesis refused

end Course

/-! ## Whole runs -/

section Runs

variable
  {typed : TypedJob}
  {runner : Runner}
  {tree : FileTree}

/-- A run that comes to no refused command is the same as if every command were launched. -/
theorem run_jobWith_of_accepted
    (same : runner.toLauncher = typed.launcher)
    (accepts : typed.refusal? runner.refuses tree = none) :
    run (typed.jobWith runner) tree = run typed.job tree := by
  rcases made : tree.makeDirectories typed.settings.outputPath with ⟨created, _ | fault⟩
  · obtain ⟨after, course, final⟩ := run_of_created made
    rw [final, run_jobWith_of_created made,
      course.produceAll_of_accepted same (List.findSome?_eq_none_iff.mp accepts)]
  · rw [job, run_jobWith_of_not_created made, run_jobWith_of_not_created made]

/-- A run that comes to a refused command ends with the reason. -/
theorem result_jobWith_of_refused
    {fault : Fault}
    (same : runner.toLauncher = typed.launcher)
    (refused : typed.refusal? runner.refuses tree = some fault) :
    (run (typed.jobWith runner) tree).result = .error fault := by
  rcases made : tree.makeDirectories typed.settings.outputPath with ⟨created, _ | denied⟩
  · obtain ⟨after, course, _⟩ := run_of_created made
    have faulted := course.faulted_produceAll same refused
    rw [run_jobWith_of_created made, andThen_of_not_running (by simp [faulted]),
      Progress.result, faulted]
  · simp [refusal?, rounds, made] at refused

/-- A run that returns is the same as if every command were launched. -/
theorem run_jobWith_of_returned
    {outcome : Outcome}
    (same : runner.toLauncher = typed.launcher)
    (returned : (run (typed.jobWith runner) tree).result = .ok outcome) :
    run (typed.jobWith runner) tree = run typed.job tree := by
  cases accepts : typed.refusal? runner.refuses tree with
  | none => exact run_jobWith_of_accepted same accepts
  | some fault =>
      rw [result_jobWith_of_refused same accepts] at returned
      contradiction

end Runs
end TypedJob
end Generation
end SchemaCodegen
