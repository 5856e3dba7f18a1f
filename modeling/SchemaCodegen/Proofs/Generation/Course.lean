import SchemaCodegen.Proofs.Generation.Round

/-!
# The course of a run

A run creates the output directory and carries out its rounds, one after the
other.  What a round does to the tree, to the launches and to the outcome is told
by the round alone.
-/

namespace SchemaCodegen
namespace Generation

open Json (Value)

theorem result_of_ended
    {progress : Progress}
    (ended : progress.status = .ended) :
    progress.result = .ok progress.outcome := by
  rw [Progress.result, ended]

namespace TypedJob

/-- The stage that generates an artifact. -/
def produce (typed : TypedJob) (runner : Runner) (artifact : Artifact)
    (progress : Progress) : Progress :=
  progress.launch runner (typed.command artifact) (typed.forward artifact)
    fun result progress =>
      if result.ok then
        if artifact = .capnp then
          renameBindings typed.job typed.settings.outputPath progress
        else progress.complete (typed.path artifact) artifact.state
      else progress.abort artifact.launchCause result.error

/-- The stages that generate some artifacts. -/
def produceAll (typed : TypedJob) (runner : Runner) (artifacts : List Artifact)
    (progress : Progress) : Progress :=
  artifacts.foldl (fun progress artifact => progress.andThen (typed.produce runner artifact))
    progress

theorem generatePlain_eq (typed : TypedJob) (runner : Runner) :
    generatePlain (typed.jobWith runner) typed.settings.outputPath =
      typed.produce runner .plain := by
  funext progress
  simp only [generatePlain, compile, jobWith, TypedConfig.capnp_config]
  rfl

theorem generateBindings_eq (typed : TypedJob) (runner : Runner) :
    generateBindings (typed.jobWith runner) typed.settings.outputPath =
      if typed.source.directives.capnp then typed.produce runner .capnp else id := by
  funext progress
  unfold generateBindings compile
  by_cases asked : typed.source.directives.capnp = true
  · rw [if_pos asked]
    simp only [jobWith, asked, TypedConfig.capnp_config, produce, if_true]
    rfl
  · rw [if_neg asked]
    simp only [jobWith, asked]
    rfl

theorem generateEncoders_eq (typed : TypedJob) (runner : Runner) :
    generateEncoders (typed.jobWith runner) typed.settings.outputPath =
      if typed.source.directives.msgp then typed.produce runner .msgp else id := by
  funext progress
  unfold generateEncoders
  by_cases asked : typed.source.directives.msgp = true
  · rw [if_pos asked]
    simp only [jobWith, asked, TypedConfig.msgp_config, produce, if_true]
    rfl
  · rw [if_neg asked]
    simp only [jobWith, asked]
    rfl

theorem andThen_of_running
    {progress : Progress}
    (running : progress.status = .running)
    (stage : Progress → Progress) :
    progress.andThen stage = stage progress := by
  rw [Progress.andThen, running]

theorem andThen_of_not_running
    {progress : Progress}
    (stopped : progress.status ≠ .running)
    (stage : Progress → Progress) :
    progress.andThen stage = progress := by
  unfold Progress.andThen
  split
  · contradiction
  · rfl

@[simp] theorem andThen_id (progress : Progress) : progress.andThen id = progress := by
  unfold Progress.andThen
  split <;> rfl

@[simp] theorem tree_andThen_finish (progress : Progress) :
    (progress.andThen finish).tree = progress.tree := by
  unfold Progress.andThen
  split <;> rfl

@[simp] theorem launches_andThen_finish (progress : Progress) :
    (progress.andThen finish).launches = progress.launches := by
  unfold Progress.andThen
  split <;> rfl

theorem produceAll_of_not_running
    (typed : TypedJob)
    (runner : Runner)
    {progress : Progress}
    (stopped : progress.status ≠ .running)
    (artifacts : List Artifact) :
    typed.produceAll runner artifacts progress = progress := by
  induction artifacts with
  | nil => rfl
  | cons artifact rest inductionHypothesis =>
      rw [produceAll, List.foldl_cons, andThen_of_not_running stopped]
      exact inductionHypothesis

/-- A run creates the output directory and generates what the schema asks for. -/
theorem run_eq (typed : TypedJob) (runner : Runner) (tree : FileTree) :
    run (typed.jobWith runner) tree =
      (typed.produceAll runner typed.wanted
        (prepare typed.settings.outputPath (begin typed.job tree))).andThen finish := by
  have started : (begin (typed.jobWith runner) tree).status = .running := rfl
  have outputDir :
      (typed.jobWith runner).config.outputPath = .ok typed.settings.outputPath := rfl
  have begun : begin typed.job tree = begin (typed.jobWith runner) tree := rfl
  unfold run
  rw [outputDir, begun]
  simp only [generatePlain_eq, andThen_of_running started]
  generalize prepare typed.settings.outputPath (begin (typed.jobWith runner) tree) = prepared
  rw [generateBindings_eq, generateEncoders_eq, wanted, produceAll]
  cases typed.source.directives.capnp <;> cases typed.source.directives.msgp <;> simp

/-! ## What a stage does -/

/-- The outcome and the status after a round that follows a given outcome. -/
def close (typed : TypedJob) (round : Round) (outcome : Outcome) : Outcome × Status :=
  if round.result.ok then
    match round.fault with
    | none =>
        ((outcome.addArtifact (typed.path round.artifact)).enter round.artifact.state, .running)
    | some fault =>
        if fault.isFileFault then
          (outcome.abort Cause.artifact.message
            (some ((typed.path .capnp).text ++ ": " ++ fault.message)), .ended)
        else (outcome, .faulted fault)
  else (outcome.abort round.artifact.launchCause.message round.result.error, .ended)

theorem close_of_succeeded
    (typed : TypedJob)
    {round : Round}
    (succeeded : round.succeeded = true)
    (outcome : Outcome) :
    typed.close round outcome =
      ((outcome.addArtifact (typed.path round.artifact)).enter round.artifact.state,
        .running) := by
  obtain ⟨ended, renamed⟩ := Round.succeeded_iff.mp succeeded
  simp [close, ended, renamed]

theorem close_ne_running
    (typed : TypedJob)
    {round : Round}
    (failed : round.succeeded = false)
    (outcome : Outcome) :
    (typed.close round outcome).2 ≠ .running := by
  unfold close
  rcases Round.failed_iff.mp failed with ended | ⟨ended, kept⟩
  · simp [ended]
  · obtain ⟨fault, fault_eq⟩ := Option.ne_none_iff_exists'.mp kept
    simp only [ended, fault_eq, if_true]
    split <;> simp

/-- A run right after the launch and the renaming of a round, both told to the log. -/
def told (typed : TypedJob) (round : Round) (progress : Progress) : Progress :=
  let launch := typed.launch round.artifact
  let noted := if typed.launcher.isEchoing then progress.note launch.record else progress
  let launched :=
    { noted with tree := round.after, launches := progress.launches ++ [launch] }
  if round.result.ok ∧ round.artifact = .capnp then
    launched.note (renameRecord typed.job (typed.path .capnp))
  else launched

/-- What a round makes of a run that goes on. -/
def carryOut (typed : TypedJob) (round : Round) (progress : Progress) : Progress :=
  let told := typed.told round progress
  if round.result.ok then
    match round.fault with
    | none => told.complete (typed.path round.artifact) round.artifact.state
    | some fault =>
        if fault.isFileFault then
          told.abort .artifact (some ((typed.path .capnp).text ++ ": " ++ fault.message))
        else told.fail fault
  else told.abort round.artifact.launchCause round.result.error

/-- What a stage does to a run that goes on, told by its round. -/
structure Follows (typed : TypedJob) (round : Round) (before after : Progress) : Prop where
  /-- The tree is the one that the round leaves behind. -/
  tree : after.tree = round.after
  /-- One command has been launched. -/
  launches : after.launches = before.launches ++ [typed.launch round.artifact]
  /-- The outcome and the status tell how the round has ended. -/
  closed : (after.outcome, after.status) = typed.close round before.outcome

theorem Follows.not_running
    {typed : TypedJob}
    {round : Round}
    {before after : Progress}
    (follows : typed.Follows round before after)
    (failed : round.succeeded = false) :
    after.status ≠ .running := by
  have status_eq : after.status = (typed.close round before.outcome).2 :=
    congrArg Prod.snd follows.closed
  rw [status_eq]
  exact typed.close_ne_running failed _

theorem Follows.running
    {typed : TypedJob}
    {round : Round}
    {before after : Progress}
    (follows : typed.Follows round before after)
    (succeeded : round.succeeded = true) :
    after.status = .running := by
  have closed := follows.closed
  rw [typed.close_of_succeeded succeeded] at closed
  exact congrArg Prod.snd closed

theorem renameBindings_eq (typed : TypedJob) (progress : Progress) :
    renameBindings typed.job typed.settings.outputPath progress =
      let noted := progress.note (renameRecord typed.job (typed.path .capnp))
      match typed.rename progress.tree with
      | (tree, .ok _) => { noted with tree }.complete (typed.path .capnp) .disambiguated
      | (tree, .error fault) =>
          if fault.isFileFault then
            { noted with tree }.abort .artifact
              (some ((typed.path .capnp).text ++ ": " ++ fault.message))
          else { noted with tree }.fail fault := by
  have updated :
      TextFile.update typed.job.policy progress.tree
        (Artifact.capnp.path typed.settings.outputPath typed.job.source)
        (Rename.renameWith typed.job.config.mode.mode typed.job.config.suffix
          typed.job.source.typeNames) = typed.rename progress.tree := rfl
  unfold renameBindings
  simp only [updated]
  rcases typed.rename progress.tree with ⟨tree, fault | content⟩ <;> rfl

/-- A stage carries out its round. -/
theorem produce_eq
    (typed : TypedJob)
    (artifact : Artifact)
    (progress : Progress) :
    typed.produce (.ofLauncher typed.launcher) artifact progress =
      typed.carryOut (typed.round progress.launches.length artifact progress.tree)
        progress := by
  unfold produce Progress.launch round carryOut told
  simp only [Runner.ofLauncher, renameBindings_eq, finished, launch]
  generalize typed.launcher.effect progress.launches.length (typed.command artifact)
    progress.tree = effect
  obtain ⟨tree, result⟩ := effect
  cases ended : result.ok with
  | false =>
      simp only [Bool.false_eq_true, false_and, if_false]
      rfl
  | true =>
      by_cases bindings : artifact = .capnp
      · subst bindings
        simp only [and_true, if_true]
        rcases typed.rename tree with ⟨after, fault | content⟩
        · rfl
        · rfl
      · simp only [bindings, and_false, if_false, if_true]
        rfl

/-- Apart from the log, a launch and a renaming only change the tree. -/
theorem told_eq
    (typed : TypedJob)
    (round : Round)
    (progress : Progress) :
    ∃ log, typed.told round progress =
      { progress with
        tree := round.after
        launches := progress.launches ++ [typed.launch round.artifact]
        log := log } := by
  unfold told
  split <;> split <;> exact ⟨_, rfl⟩

theorem follows_carryOut
    (typed : TypedJob)
    (round : Round)
    {progress : Progress}
    (running : progress.status = .running) :
    typed.Follows round progress (typed.carryOut round progress) := by
  obtain ⟨log, told_eq⟩ := typed.told_eq round progress
  unfold carryOut
  rw [told_eq]
  cases ended : round.result.ok with
  | false =>
      refine ⟨rfl, rfl, ?_⟩
      rw [close, ended]
      rfl
  | true =>
      cases kept : round.fault with
      | none =>
          refine ⟨rfl, rfl, ?_⟩
          rw [close, ended, kept, ← running]
          rfl
      | some fault =>
          by_cases reported : fault.isFileFault = true
          · simp only [if_true, reported]
            refine ⟨rfl, rfl, ?_⟩
            simp only [close, ended, kept, reported, if_true]
            rfl
          · simp only [if_true, reported, Bool.false_eq_true, if_false]
            refine ⟨rfl, rfl, ?_⟩
            simp only [close, ended, kept, reported, if_true, Bool.false_eq_true, if_false]
            rfl

theorem produceAll_cons
    (typed : TypedJob)
    {progress : Progress}
    (running : progress.status = .running)
    (artifact : Artifact)
    (rest : List Artifact) :
    typed.produceAll (.ofLauncher typed.launcher) (artifact :: rest) progress =
      typed.produceAll (.ofLauncher typed.launcher) rest
        (typed.carryOut (typed.round progress.launches.length artifact progress.tree)
          progress) := by
  rw [produceAll, List.foldl_cons, andThen_of_running running, produce_eq, ← produceAll]

/--
The course of a run that goes on: its stages carry out one round after the other
until no artifact is left or a round does not succeed.
-/
inductive Course (typed : TypedJob) :
    List Artifact → Progress → List Round → Progress → Prop
  /-- No artifact is left. -/
  | finished {progress : Progress} :
      progress.status = .running →
      Course typed [] progress [] progress
  /-- The round for the next artifact does not succeed. -/
  | stopped
      {artifact : Artifact}
      {rest : List Artifact}
      {round : Round}
      {before : Progress} :
      before.status = .running →
      round = typed.round before.launches.length artifact before.tree →
      round.succeeded = false →
      Course typed (artifact :: rest) before [round] (typed.carryOut round before)
  /-- The round for the next artifact succeeds, and the run goes on. -/
  | continued
      {artifact : Artifact}
      {rest : List Artifact}
      {round : Round}
      {rounds : List Round}
      {before after : Progress} :
      before.status = .running →
      round = typed.round before.launches.length artifact before.tree →
      round.succeeded = true →
      Course typed rest (typed.carryOut round before) rounds after →
      Course typed (artifact :: rest) before (round :: rounds) after

/-- The stages of a run take the course that its rounds tell. -/
theorem course_produceAll
    (typed : TypedJob)
    (artifacts : List Artifact)
    {progress : Progress}
    (running : progress.status = .running) :
    typed.Course artifacts progress
      (typed.roundsFrom artifacts progress.launches.length progress.tree)
      (typed.produceAll (.ofLauncher typed.launcher) artifacts progress) := by
  induction artifacts generalizing progress with
  | nil => exact .finished running
  | cons artifact rest inductionHypothesis =>
      rw [produceAll_cons typed running, roundsFrom]
      generalize same :
        typed.round progress.launches.length artifact progress.tree = round
      have follows := typed.follows_carryOut round running
      cases succeeded : round.succeeded with
      | false =>
          rw [typed.produceAll_of_not_running _ (follows.not_running succeeded)]
          simp only [Bool.false_eq_true, if_false]
          exact .stopped running same.symm succeeded
      | true =>
          have launched : progress.launches.length + 1 =
              (typed.carryOut round progress).launches.length := by
            rw [follows.launches, List.length_append, List.length_singleton]
          simp only [if_true]
          rw [launched, ← follows.tree]
          exact .continued running same.symm succeeded
            (inductionHypothesis (follows.running succeeded))

/-- The outcome once some more artifacts are there. -/
def completeAll (typed : TypedJob) (artifacts : List Artifact) (outcome : Outcome) : Outcome :=
  { outcome with
    history := outcome.history ++ artifacts.map Artifact.state
    artifacts := outcome.artifacts ++ artifacts.map typed.path }

theorem completeAll_cons
    (typed : TypedJob)
    (artifact : Artifact)
    (rest : List Artifact)
    (outcome : Outcome) :
    typed.completeAll (artifact :: rest) outcome =
      typed.completeAll rest
        ((outcome.addArtifact (typed.path artifact)).enter artifact.state) := by
  simp [completeAll, Outcome.addArtifact, Outcome.enter]

/-- All rounds have succeeded. -/
structure RunsOut
    (typed : TypedJob)
    (artifacts : List Artifact)
    (before : Progress)
    (rounds : List Round)
    (after : Progress) : Prop where
  /-- The run still goes on. -/
  running : after.status = .running
  /-- There was a round for each artifact. -/
  artifacts_eq : rounds.map Round.artifact = artifacts
  /-- Every round has succeeded. -/
  succeeded : ∀ round ∈ rounds, round.succeeded = true
  /-- The outcome tells about all artifacts. -/
  outcome : after.outcome = typed.completeAll artifacts before.outcome

/-- Some rounds have succeeded, and the next one has failed. -/
structure BreaksOff
    (typed : TypedJob)
    (artifacts : List Artifact)
    (before : Progress)
    (rounds : List Round)
    (after : Progress)
    (done later : List Artifact)
    (failing : Round) : Prop where
  /-- The artifacts before the failing round are there. -/
  split : artifacts = done ++ failing.artifact :: later
  /-- The failing round is the last one. -/
  last : rounds.getLast? = some failing
  /-- It has not succeeded. -/
  failed : failing.succeeded = false
  /-- Its command or the renaming has failed. -/
  reason : CommandFailed failing ∨ RenamingFailed failing
  /-- The outcome and the status tell how it has ended. -/
  closed : (after.outcome, after.status) =
    typed.close failing (typed.completeAll done before.outcome)

namespace Course

variable
  {typed : TypedJob}
  {artifacts : List Artifact}
  {before after : Progress}
  {rounds : List Round}

theorem launches_eq (course : typed.Course artifacts before rounds after) :
    after.launches =
      before.launches ++ rounds.map fun round => typed.launch round.artifact := by
  induction course with
  | finished => simp
  | stopped running _ _ =>
      rw [(typed.follows_carryOut _ running).launches, List.map_singleton]
  | continued running _ _ _ inductionHypothesis =>
      rw [inductionHypothesis, (typed.follows_carryOut _ running).launches, List.map_cons,
        List.append_assoc, List.singleton_append]

theorem tree_eq (course : typed.Course artifacts before rounds after) :
    after.tree = (rounds.getLast?.map Round.after).getD before.tree := by
  induction course with
  | finished => rfl
  | stopped running _ _ =>
      rw [(typed.follows_carryOut _ running).tree]
      rfl
  | @continued _ _ round rounds _ _ running _ _ _ inductionHypothesis =>
      rw [inductionHypothesis, (typed.follows_carryOut round running).tree,
        List.getLast?_cons]
      cases rounds.getLast? <;> rfl

theorem artifacts_prefix (course : typed.Course artifacts before rounds after) :
    rounds.map Round.artifact <+: artifacts := by
  induction course with
  | finished => simp
  | stopped _ same _ => simp [same, round]
  | continued _ same _ _ inductionHypothesis =>
      simpa [same, round] using inductionHypothesis

theorem succeeded_of_mem_dropLast
    (course : typed.Course artifacts before rounds after)
    {round : Round}
    (member : round ∈ rounds.dropLast) :
    round.succeeded = true := by
  induction course with
  | finished => simp at member
  | stopped => simp at member
  | @continued _ _ first rounds _ _ _ _ succeeded _ inductionHypothesis =>
      cases rounds with
      | nil => simp at member
      | cons second rounds =>
          rw [List.dropLast_cons_cons, List.mem_cons] at member
          rcases member with rfl | later
          · exact succeeded
          · exact inductionHypothesis later

/-- A run runs out of artifacts or breaks off at a round that fails. -/
theorem runsOut_or_breaksOff (course : typed.Course artifacts before rounds after) :
    typed.RunsOut artifacts before rounds after ∨
      ∃ done later failing,
        typed.BreaksOff artifacts before rounds after done later failing := by
  induction course with
  | finished running => exact Or.inl ⟨running, rfl, by simp, by simp [completeAll]⟩
  | @stopped artifact rest round before running same failed =>
      have follows := typed.follows_carryOut round running
      subst same
      refine Or.inr ⟨[], rest, _, rfl, rfl, failed,
        commandFailed_or_renamingFailed failed, ?_⟩
      simpa [completeAll] using follows.closed
  | @continued artifact rest round rounds before after running same succeeded _
      inductionHypothesis =>
      have same_artifact : round.artifact = artifact := by rw [same]; rfl
      have middle_eq : (typed.carryOut round before).outcome =
          (before.outcome.addArtifact (typed.path artifact)).enter artifact.state := by
        have closed := (typed.follows_carryOut round running).closed
        rw [typed.close_of_succeeded succeeded, same_artifact] at closed
        exact congrArg Prod.fst closed
      rcases inductionHypothesis with out | ⟨done, later, failing, off⟩
      · refine Or.inl ⟨out.running, ?_, ?_, ?_⟩
        · rw [List.map_cons, out.artifacts_eq, same_artifact]
        · intro other member
          rcases List.mem_cons.mp member with rfl | later
          · exact succeeded
          · exact out.succeeded other later
        · rw [out.outcome, middle_eq, completeAll_cons]
      · refine Or.inr ⟨artifact :: done, later, failing, ?_, ?_, off.failed, off.reason, ?_⟩
        · rw [off.split, List.cons_append]
        · rw [List.getLast?_cons, off.last]
          rfl
        · rw [off.closed, middle_eq, completeAll_cons]

end Course

theorem BreaksOff.not_running
    {typed : TypedJob}
    {artifacts done later : List Artifact}
    {before after : Progress}
    {rounds : List Round}
    {failing : Round}
    (off : typed.BreaksOff artifacts before rounds after done later failing) :
    after.status ≠ .running := by
  have status_eq :
      after.status = (typed.close failing (typed.completeAll done before.outcome)).2 :=
    congrArg Prod.snd off.closed
  rw [status_eq]
  exact typed.close_ne_running off.failed _

/-! ## The whole run -/

/-- What becomes of a run whose output directory cannot be created. -/
structure Uncreated (created : FileTree) (started final : Progress) : Prop where
  /-- The tree is as the attempt has left it. -/
  tree : final.tree = created
  /-- No command has been launched. -/
  launches : final.launches = started.launches
  /-- The run is aborted, or it ends with a fault. -/
  closed :
    (∃ detail, final.status = .ended ∧
      final.outcome = started.outcome.abort Cause.outputDir.message detail) ∨
    ∃ fault, final.status = .faulted fault

theorem uncreated_prepare
    {started : Progress}
    {created : FileTree}
    {path : Path}
    {fault : AccessFault}
    (failed : started.tree.makeDirectories path = (created, some fault)) :
    Uncreated created started (prepare path started) := by
  unfold prepare
  rw [failed]
  cases fault with
  | refused refusal path target => exact ⟨rfl, rfl, Or.inl ⟨_, rfl, rfl⟩⟩
  | unusable => exact ⟨rfl, rfl, Or.inr ⟨_, rfl⟩⟩
  | tooDeep => exact ⟨rfl, rfl, Or.inr ⟨_, rfl⟩⟩

theorem Uncreated.not_running
    {created : FileTree}
    {started final : Progress}
    (uncreated : Uncreated created started final) :
    final.status ≠ .running := by
  rcases uncreated.closed with ⟨_, ended, _⟩ | ⟨_, faulted⟩
  · simp [ended]
  · simp [faulted]

section Runs

variable
  {typed : TypedJob}
  {tree created : FileTree}

theorem run_jobWith_of_not_created
    {fault : AccessFault}
    (failed : tree.makeDirectories typed.settings.outputPath = (created, some fault))
    (runner : Runner) :
    run (typed.jobWith runner) tree =
      prepare typed.settings.outputPath (begin typed.job tree) := by
  have uncreated :
      Uncreated created (begin typed.job tree)
        (prepare typed.settings.outputPath (begin typed.job tree)) :=
    uncreated_prepare failed
  rw [run_eq, typed.produceAll_of_not_running _ uncreated.not_running,
    andThen_of_not_running uncreated.not_running]

theorem run_jobWith_of_created
    (made : tree.makeDirectories typed.settings.outputPath = (created, none))
    (runner : Runner) :
    run (typed.jobWith runner) tree =
      (typed.produceAll runner typed.wanted
        { begin typed.job tree with tree := created }).andThen finish := by
  have prepared : prepare typed.settings.outputPath (begin typed.job tree) =
      { begin typed.job tree with tree := created } := by
    have begun : (begin typed.job tree).tree = tree := rfl
    unfold prepare
    rw [begun, made]
  rw [run_eq, prepared]

/-- Without an output directory a run launches nothing. -/
theorem run_of_not_created
    {fault : AccessFault}
    (failed : tree.makeDirectories typed.settings.outputPath = (created, some fault)) :
    Uncreated created (begin typed.job tree) (run typed.job tree) := by
  rw [job, run_jobWith_of_not_created failed]
  exact uncreated_prepare failed

/-- With an output directory a run takes the course of its rounds and finishes then. -/
theorem run_of_created
    (made : tree.makeDirectories typed.settings.outputPath = (created, none)) :
    ∃ after,
      typed.Course typed.wanted { begin typed.job tree with tree := created }
        (typed.rounds tree) after ∧
      run typed.job tree = after.andThen finish := by
  refine ⟨_, ?_, run_jobWith_of_created made _⟩
  rw [rounds, made]
  exact typed.course_produceAll typed.wanted rfl

end Runs

end TypedJob
end Generation
end SchemaCodegen
