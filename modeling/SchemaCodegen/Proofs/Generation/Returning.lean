import SchemaCodegen.Config.File
import SchemaCodegen.Proofs.Generation.History
import SchemaCodegen.Proofs.Generation.Refused
import SchemaCodegen.Proofs.TextFile.Faults

/-!
# Runs that return

A run that starts child processes returns an outcome, which tells that everything is there
or what has failed, unless the operating system does not take the path of the output
directory or a word of a command, or too many directories are missing.  These faults end a
run without an outcome.
-/

namespace SchemaCodegen

namespace Outcome

/-- An outcome tells that the run has come to its end, or what has failed. -/
def IsSettled (outcome : Outcome) : Prop :=
  outcome.state = .done ∧ outcome.error = none ∨
    outcome.state = .aborted ∧ outcome.error ≠ none

theorem isSettled_abort (outcome : Outcome) (cause : Text) (detail : Option Text) :
    (outcome.abort cause detail).IsSettled :=
  Or.inr ⟨state_abort outcome cause detail, by simp [abort]⟩

theorem isSettled_enter_done
    {outcome : Outcome}
    (faultless : outcome.error = none) :
    (outcome.enter .done).IsSettled :=
  Or.inl ⟨state_enter outcome .done, faultless⟩

end Outcome

namespace TypedConfig

/-- The texts that are handed to the operating system, alone or as parts of others. -/
def handedOver (settings : TypedConfig) : List Text :=
  [settings.outputDir, settings.compiler, settings.schemaDir, settings.goCapnpDir,
    settings.plainPlugin, settings.codecPlugin, settings.encoder]

variable
  {settings : TypedConfig}
  (usable : ∀ text ∈ settings.handedOver, text.handoverFault? = none)
include usable

theorem handoverFault?_outputFlag
    {plugin : Text}
    (pluginUsable : plugin.handoverFault? = none) :
    (settings.outputFlag plugin).handoverFault? = none := by
  have dash : (Text.ofString "-o").handoverFault? = none := by decide
  have directory : settings.outputDir.handoverFault? = none := usable _ (by simp [handedOver])
  unfold outputFlag
  split <;> simp [dash, pluginUsable, directory]

theorem startFault?_compileCommand
    {schema : Text}
    (schemaUsable : schema.handoverFault? = none)
    (withCodec : Bool) :
    (settings.compileCommand schema withCodec).startFault? = none := by
  have search : (Text.ofString "-I").handoverFault? = none := by decide
  have verb : (Text.ofString "compile").handoverFault? = none := by decide
  have plainFlag : (settings.outputFlag settings.plainPlugin).handoverFault? = none :=
    handoverFault?_outputFlag usable (usable _ (by simp [handedOver]))
  have codecFlag : (settings.outputFlag settings.codecPlugin).handoverFault? = none :=
    handoverFault?_outputFlag usable (usable _ (by simp [handedOver]))
  simp only [handedOver, List.forall_mem_cons] at usable
  rw [compileCommand, Command.startFault?_eq_none_iff]
  cases withCodec <;> simp [usable, schemaUsable, search, verb, plainFlag, codecFlag]

theorem startFault?_encodeCommand
    {input output : Text}
    (inputUsable : input.handoverFault? = none)
    (outputUsable : output.handoverFault? = none) :
    (settings.encodeCommand input output).startFault? = none := by
  have options : ∀ option ∈ [Text.ofString "-o=", "-tests=", "-file=", "true", "false"],
      option.handoverFault? = none := by decide
  simp only [List.forall_mem_cons] at options
  simp only [handedOver, List.forall_mem_cons] at usable
  rw [encodeCommand, Command.startFault?_eq_none_iff]
  cases settings.generateTests <;> simp [usable, inputUsable, outputUsable, options]

end TypedConfig

namespace Generation
namespace TypedJob

variable {typed : TypedJob} {tree : FileTree}

/-- The faults that end a run without an outcome. -/
inductive Raises (typed : TypedJob) (tree : FileTree) : Fault → Prop
  /-- The operating system does not take the path of the output directory. -/
  | outputDirectory {unusable : HandoverFault} :
      typed.settings.outputPath.fault? = some unusable →
      Raises typed tree (.access (.unusable unusable))
  /-- Too many directories on the way to the output directory are missing. -/
  | missingDirectories :
      (tree.makeDirectories typed.settings.outputPath).2 = some .tooDeep →
      Raises typed tree (.access .tooDeep)
  /-- The operating system does not take a word of a command that the run comes to. -/
  | command {fault : Fault} :
      typed.refusal? Command.startFault? tree = some fault →
      Raises typed tree fault

/-! ## Faults of rounds -/

theorem isFileFault_of_round
    {index : Nat}
    {artifact : Artifact}
    {fault : Fault}
    (usable : (typed.path .capnp).fault? = none)
    (kept : (typed.round index artifact tree).fault = some fault) :
    fault.isFileFault = true := by
  have noNul : (typed.path .capnp).fault? ≠ some .nul := by simp [usable]
  simp only [round, finished] at kept
  split at kept
  case isFalse => simp at kept
  case isTrue =>
    split at kept
    case h_1 => simp at kept
    case h_2 failed =>
      rw [← Option.some.inj kept]
      exact TextFile.isFileFault_of_update noNul (fun _ => ⟨_, rfl⟩) failed

namespace Course

variable
  {artifacts : List Artifact}
  {before after : Progress}
  {rounds : List Round}
  {member : Round}

theorem exists_round_eq
    (course : typed.Course artifacts before rounds after)
    (isMember : member ∈ rounds) :
    ∃ index tree, member = typed.round index member.artifact tree := by
  induction course with
  | finished => simp at isMember
  | stopped _ same _ =>
      rw [List.mem_singleton.mp isMember, same]
      exact ⟨_, _, rfl⟩
  | continued _ same _ _ inductionHypothesis =>
      rcases List.mem_cons.mp isMember with rfl | later
      · rw [same]
        exact ⟨_, _, rfl⟩
      · exact inductionHypothesis later

theorem isFileFault_of_mem
    {fault : Fault}
    (course : typed.Course artifacts before rounds after)
    (isMember : member ∈ rounds)
    (usable : (typed.path .capnp).fault? = none)
    (kept : member.fault = some fault) :
    fault.isFileFault = true := by
  obtain ⟨index, tree, member_eq⟩ := course.exists_round_eq isMember
  rw [member_eq] at kept
  exact isFileFault_of_round usable kept

end Course

/-! ## How a run ends -/

theorem result_of_faulted
    {progress : Progress}
    {fault : Fault}
    (faulted : progress.status = .faulted fault) :
    progress.result = .error fault := by
  rw [Progress.result, faulted]

theorem result_of_not_created
    {created : FileTree}
    {fault : AccessFault}
    (runner : Runner)
    (failed : tree.makeDirectories typed.settings.outputPath = (created, some fault)) :
    (run (typed.jobWith runner) tree).result =
      match fault with
      | .refused _ _ _ =>
          .ok ((begin typed.job tree).outcome.abort Cause.outputDir.message
            (some fault.message))
      | _ => .error (.access fault) := by
  have failedHere : (begin typed.job tree).tree.makeDirectories typed.settings.outputPath =
      (created, some fault) := failed
  rw [run_jobWith_of_not_created failed, prepare, failedHere]
  cases fault <;> rfl

section Subprocess

variable {searchPath : SearchPath}

theorem result_of_raises
    {fault : Fault}
    (raises : typed.Raises tree fault) :
    (run (typed.jobWith (.subprocess searchPath typed.launcher)) tree).result =
      .error fault := by
  rcases made : tree.makeDirectories typed.settings.outputPath with ⟨created, tried⟩
  cases raises with
  | outputDirectory unusable =>
      have refused := (FileTree.fault?_iff_makeDirectories tree _ _).mpr unusable
      rw [made] at refused
      subst refused
      exact result_of_not_created _ made
  | missingDirectories missing =>
      rw [made] at missing
      subst missing
      exact result_of_not_created _ made
  | command refused => exact result_jobWith_of_refused rfl refused

/-- A run returns a settled outcome, or it ends with one of the faults. -/
inductive Ends (typed : TypedJob) (tree : FileTree) : Except Fault Outcome → Prop
  /-- There is an outcome. -/
  | returned {outcome : Outcome} :
      outcome.IsSettled → Ends typed tree (.ok outcome)
  /-- There is a reason for the fault. -/
  | raised {fault : Fault} :
      typed.Raises tree fault → Ends typed tree (.error fault)

theorem ends_of_not_created
    {created : FileTree}
    {fault : AccessFault}
    (runner : Runner)
    (failed : tree.makeDirectories typed.settings.outputPath = (created, some fault)) :
    typed.Ends tree (run (typed.jobWith runner) tree).result := by
  have tried : (tree.makeDirectories typed.settings.outputPath).2 = some fault := by
    rw [failed]
  rw [result_of_not_created runner failed]
  cases fault with
  | unusable unusable =>
      have untaken := (FileTree.fault?_iff_makeDirectories tree _ unusable).mp tried
      exact .raised (.outputDirectory untaken)
  | tooDeep => exact .raised (.missingDirectories tried)
  | refused refusal spelling target => exact .returned (Outcome.isSettled_abort _ _ _)

theorem ends_of_aborted
    {progress : Progress}
    {outcome : Outcome}
    {cause : Text}
    {detail : Option Text}
    (closed : (progress.outcome, progress.status) = (outcome.abort cause detail, .ended)) :
    typed.Ends tree progress.result := by
  obtain ⟨outcome_eq, ended⟩ := Prod.mk.inj closed
  rw [result_of_ended ended, outcome_eq]
  exact .returned (Outcome.isSettled_abort outcome cause detail)

/-- A run that breaks off is aborted, as its bindings can be named. -/
theorem ends_of_breaksOff
    {artifacts done later : List Artifact}
    {before after : Progress}
    {failing : Round}
    (usable : (typed.path .capnp).fault? = none)
    (course : typed.Course artifacts before (typed.rounds tree) after)
    (off : typed.BreaksOff artifacts before (typed.rounds tree) after done later failing) :
    typed.Ends tree after.result := by
  have isLast : failing ∈ typed.rounds tree := List.mem_of_getLast? off.last
  have closed := off.closed
  unfold close at closed
  rcases off.reason with command | ⟨_, ended, kept⟩
  · rw [CommandFailed] at command
    rw [if_neg (by simp [command])] at closed
    exact ends_of_aborted closed
  · obtain ⟨fault, fault_eq⟩ := Option.ne_none_iff_exists'.mp kept
    have reported := course.isFileFault_of_mem isLast usable fault_eq
    simp only [ended, fault_eq, reported, if_true] at closed
    exact ends_of_aborted closed

/-- A run whose commands are all launched returns, as its bindings can be named. -/
theorem ends_of_created
    {created : FileTree}
    (usable : (typed.path .capnp).fault? = none)
    (made : tree.makeDirectories typed.settings.outputPath = (created, none)) :
    typed.Ends tree (run typed.job tree).result := by
  obtain ⟨after, course, final⟩ := run_of_created made
  rw [final]
  rcases course.runsOut_or_breaksOff with out | ⟨done, later, failing, off⟩
  · have faultless : after.outcome.error = none := by
      rw [out.outcome]
      rfl
    rw [andThen_of_running out.running]
    exact .returned (Outcome.isSettled_enter_done faultless)
  · rw [andThen_of_not_running off.not_running]
    exact ends_of_breaksOff usable course off

/-- The first command is always come to, and it names the schema. -/
theorem fault?_schema_of_accepted
    {created : FileTree}
    (made : tree.makeDirectories typed.settings.outputPath = (created, none))
    (accepts : typed.refusal? Command.startFault? tree = none) :
    typed.source.path.fault? = none := by
  obtain ⟨first, isFirst, plain⟩ :
      ∃ round ∈ typed.rounds tree, round.artifact = .plain := by
    rw [rounds, made]
    exact typed.exists_mem_roundsFrom_cons .plain _ 0 created
  have started := List.findSome?_eq_none_iff.mp accepts first isFirst
  rw [plain, command, TypedConfig.compileCommand, Command.startFault?_eq_none_iff] at started
  exact started _ (by simp)

theorem ends_run (typed : TypedJob) (searchPath : SearchPath) (tree : FileTree) :
    typed.Ends tree
      (run (typed.jobWith (.subprocess searchPath typed.launcher)) tree).result := by
  rcases made : tree.makeDirectories typed.settings.outputPath with ⟨created, _ | fault⟩
  · cases accepts : typed.refusal? Command.startFault? tree with
    | some fault =>
        rw [result_jobWith_of_refused rfl accepts]
        exact .raised (.command accepts)
    | none =>
        have directoryUsable : typed.settings.outputPath.fault? = none := by
          by_contra untaken
          obtain ⟨unusable, found⟩ := Option.ne_none_iff_exists'.mp untaken
          simpa [made] using (FileTree.fault?_iff_makeDirectories tree _ unusable).mpr found
        have usable : (typed.path .capnp).fault? = none :=
          Artifact.fault?_path .capnp directoryUsable (fault?_schema_of_accepted made accepts)
        rw [run_jobWith_of_accepted rfl accepts]
        exact ends_of_created usable made
  · exact ends_of_not_created _ made

end Subprocess

/-- No fault ends a run whose settings and schema can be handed over. -/
theorem not_raises_of_handedOver
    (usable : ∀ text ∈ typed.settings.handedOver, text.handoverFault? = none)
    (schemaUsable : typed.source.path.fault? = none)
    (shallow : (tree.makeDirectories typed.settings.outputPath).2 ≠ some .tooDeep)
    (fault : Fault) :
    ¬typed.Raises tree fault := by
  have directoryUsable : typed.settings.outputPath.fault? = none :=
    Path.fault?_ofText (usable _ List.mem_cons_self)
  have pathUsable (artifact : Artifact) : (typed.path artifact).fault? = none :=
    artifact.fault?_path directoryUsable schemaUsable
  have starts (artifact : Artifact) : (typed.command artifact).startFault? = none := by
    cases artifact with
    | plain | capnp => exact TypedConfig.startFault?_compileCommand usable schemaUsable _
    | msgp => exact TypedConfig.startFault?_encodeCommand usable (pathUsable _) (pathUsable _)
  have accepts : typed.refusal? Command.startFault? tree = none :=
    List.findSome?_eq_none_iff.mpr fun round _ => starts round.artifact
  rintro (untaken | missing | refused)
  · simp [directoryUsable] at untaken
  · exact shallow missing
  · simp [accepts] at refused

/--
A run that starts child processes returns an outcome that tells about its end or its
failure, except where the operating system does not take the path of the output directory
or a word of a command that the run comes to, or where too many directories are missing:
then, and only then, it ends with a fault.  So it returns whenever the texts of its
settings and the path of its schema can be handed over and not too many directories are
missing.  A run that returns is the same as if every command were launched.
-/
theorem returns_or_raises
    (typed : TypedJob)
    (searchPath : SearchPath)
    (tree : FileTree) :
    let final := run (typed.jobWith (.subprocess searchPath typed.launcher)) tree
    (∀ outcome, final.result = .ok outcome →
        outcome.IsSettled ∧ final = run typed.job tree) ∧
      (∀ fault, final.result = .error fault ↔ typed.Raises tree fault) ∧
      ((∀ text ∈ typed.settings.handedOver, text.handoverFault? = none) →
        typed.source.path.fault? = none →
        (tree.makeDirectories typed.settings.outputPath).2 ≠ some .tooDeep →
        ∃ outcome, final.result = .ok outcome) := by
  intro final
  have ends : typed.Ends tree final.result := typed.ends_run searchPath tree
  refine ⟨fun outcome returned => ?_, fun fault => ⟨fun raised => ?_, result_of_raises⟩,
    fun usable schemaUsable shallow => ?_⟩
  · have same := run_jobWith_of_returned rfl returned
    rw [returned] at ends
    cases ends with
    | returned settled => exact ⟨settled, same⟩
  · rw [raised] at ends
    cases ends with
    | raised raises => exact raises
  · cases returned : final.result with
    | ok outcome => exact ⟨outcome, rfl⟩
    | error fault =>
        rw [returned] at ends
        cases ends with
        | raised raises =>
            exact absurd raises (not_raises_of_handedOver usable schemaUsable shallow fault)

/--
A settings file may give an output directory whose name holds the character zero.  A run
with such settings ends without an outcome.
-/
theorem raises_of_nul_outputDir :
    let text := "\x7b\"output_dir\": \"a\\u0000b\"\x7d"
    let source : Schema.Source :=
      ⟨.ofText "m.capnp", Text.ofString "$Codec.capnp; struct User"⟩
    let typed : TypedJob := ⟨{ outputDir := "a\x00b" }, source, .preserve, .ofExecutions []⟩
    let job := typed.jobWith (.subprocess .everything typed.launcher)
    Config.ofBytes (Utf8.bytesOf text) = .ok job.config ∧
      ∀ outcome, (run job ⟨["work"], []⟩).result ≠ .ok outcome := by
  intro text source typed job
  constructor
  · have given : (Config.ofBytes (Utf8.bytesOf text)).toOption = some job.config := by
      decide +kernel
    cases loaded : Config.ofBytes (Utf8.bytesOf text) with
    | error fault =>
        rw [loaded] at given
        contradiction
    | ok config =>
        rw [loaded] at given
        rw [Option.some.inj given]
  · intro outcome returned
    have nul : typed.settings.outputPath.fault? = some .nul := by decide +kernel
    rw [result_of_raises (.outputDirectory nul)] at returned
    contradiction

end TypedJob
end Generation
end SchemaCodegen
