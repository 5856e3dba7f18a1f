import SchemaCodegen.Proofs.Generation.Returning

/-!
# Runs that are settled

Whatever the settings are, of the right kinds or not: a run that returns an outcome has
come to its end without an error, or it is aborted with one.  Every stage keeps to that
nothing has failed as long as the run goes on.
-/

namespace SchemaCodegen
namespace Generation

open Json (Value)
open TypedJob (andThen_of_running andThen_of_not_running result_of_faulted)

namespace Progress

/-- Nothing has failed as long as the run goes on, and an outcome at its end is settled. -/
inductive Sound (progress : Progress) : Prop
  /-- The next stage follows. -/
  | going :
      progress.status = .running →
      progress.outcome.error = none →
      Sound progress
  /-- The run has ended with its outcome. -/
  | ended :
      progress.status = .ended →
      progress.outcome.IsSettled →
      Sound progress
  /-- The run has ended with a fault. -/
  | faulted {fault : Fault} :
      progress.status = .faulted fault →
      Sound progress

theorem sound_fail (progress : Progress) (fault : Fault) : (progress.fail fault).Sound :=
  .faulted rfl

theorem sound_abort
    (progress : Progress)
    (cause : Cause)
    (detail : Option Text) :
    (progress.abort cause detail).Sound :=
  .ended rfl (Outcome.isSettled_abort progress.outcome cause.message detail)

end Progress

/-- A stage that is entered when nothing has failed leaves a sound run behind. -/
def KeepsSound (stage : Progress → Progress) : Prop :=
  ∀ progress : Progress, progress.status = .running → progress.outcome.error = none →
    (stage progress).Sound

theorem KeepsSound.andThen
    {stage : Progress → Progress}
    {progress : Progress}
    (keeps : KeepsSound stage)
    (sound : progress.Sound) :
    (progress.andThen stage).Sound := by
  cases sound with
  | going running faultless =>
      rw [andThen_of_running running]
      exact keeps progress running faultless
  | ended stopped settled =>
      rw [andThen_of_not_running (by simp [stopped])]
      exact .ended stopped settled
  | faulted stopped =>
      rw [andThen_of_not_running (by simp [stopped])]
      exact .faulted stopped

/-! ## Stages -/

theorem keepsSound_complete (artifact : Path) (state : State) :
    KeepsSound fun progress => progress.complete artifact state :=
  fun _ running faultless => .going running faultless

theorem keepsSound_launch
    {next : CommandResult → Progress → Progress}
    (keeps : ∀ result, KeepsSound (next result))
    (runner : Runner)
    (command : Command)
    (forward : Value) :
    KeepsSound fun progress => progress.launch runner command forward next := by
  intro progress running faultless
  simp only [Progress.launch]
  cases runner.refuses command with
  | some fault => exact Progress.sound_fail _ fault
  | none =>
      -- Telling the command to the log changes neither the outcome nor the status.
      apply keeps
      · split <;> exact running
      · split <;> exact faultless

variable (job : Job) (outputDir : Path)

theorem keepsSound_prepare : KeepsSound (prepare outputDir) := by
  intro progress running faultless
  unfold prepare
  split
  case h_1 => exact .going running faultless
  case h_2 => exact Progress.sound_abort _ _ _
  case h_3 => exact Progress.sound_fail _ _

theorem keepsSound_compile
    {next : Progress → Progress}
    (keeps : KeepsSound next)
    (withCodec : Bool) :
    KeepsSound (compile job withCodec next) := by
  intro progress running faultless
  unfold compile
  split
  case h_1 => exact Progress.sound_fail _ _
  case h_2 command _ =>
    refine keepsSound_launch ?_ job.runner command _ progress running faultless
    intro result later laterRunning laterFaultless
    split
    case isTrue => exact keeps later laterRunning laterFaultless
    case isFalse => exact Progress.sound_abort _ _ _

theorem keepsSound_renameBindings : KeepsSound (renameBindings job outputDir) := by
  intro progress running faultless
  unfold renameBindings
  simp only
  split
  case h_1 => exact keepsSound_complete _ _ _ running faultless
  case h_2 =>
    split
    case isTrue => exact Progress.sound_abort _ _ _
    case isFalse => exact Progress.sound_fail _ _

theorem keepsSound_generatePlain : KeepsSound (generatePlain job outputDir) :=
  keepsSound_compile job (keepsSound_complete _ _) false

theorem keepsSound_generateBindings : KeepsSound (generateBindings job outputDir) := by
  intro progress running faultless
  unfold generateBindings
  split
  case isTrue =>
    exact keepsSound_compile job (keepsSound_renameBindings job outputDir) true progress
      running faultless
  case isFalse => exact .going running faultless

theorem keepsSound_generateEncoders : KeepsSound (generateEncoders job outputDir) := by
  intro progress running faultless
  unfold generateEncoders
  split
  case isFalse => exact .going running faultless
  case isTrue =>
    simp only
    split
    case h_1 => exact Progress.sound_fail _ _
    case h_2 command _ =>
      refine keepsSound_launch ?_ job.runner command _ progress running faultless
      intro result later laterRunning laterFaultless
      split
      case isTrue => exact keepsSound_complete _ _ later laterRunning laterFaultless
      case isFalse => exact Progress.sound_abort _ _ _

/-! ## Whole runs -/

theorem isSettled_of_andThen_finish
    {progress : Progress}
    {outcome : Outcome}
    (sound : progress.Sound)
    (returned : (progress.andThen finish).result = .ok outcome) :
    outcome.IsSettled := by
  cases sound with
  | going running faultless =>
      rw [andThen_of_running running] at returned
      rw [← Except.ok.inj returned]
      exact Outcome.isSettled_enter_done faultless
  | ended stopped settled =>
      rw [andThen_of_not_running (by simp [stopped]), result_of_ended stopped] at returned
      rwa [← Except.ok.inj returned]
  | faulted stopped =>
      rw [andThen_of_not_running (by simp [stopped]), result_of_faulted stopped] at returned
      simp at returned

/-- The outcome of a run is settled, whatever the settings are. -/
theorem isSettled_of_run
    {tree : FileTree}
    {outcome : Outcome}
    (returned : (run job tree).result = .ok outcome) :
    outcome.IsSettled := by
  unfold run at returned
  simp only at returned
  split at returned
  case h_1 => simp [Progress.fail, Progress.result] at returned
  case h_2 outputDir _ =>
    have started : (begin job tree).Sound := .going rfl rfl
    have prepared := (keepsSound_prepare outputDir).andThen started
    have plain := (keepsSound_generatePlain job outputDir).andThen prepared
    have bindings := (keepsSound_generateBindings job outputDir).andThen plain
    have encoders := (keepsSound_generateEncoders job outputDir).andThen bindings
    exact isSettled_of_andThen_finish encoders returned

end Generation
end SchemaCodegen
