import SchemaCodegen.Proofs.Generation.Returning

/-!
# Where generated files go

The plugins of the schema compiler are told the output directory by its spelling, and by
nothing at all if it is spelled as a single dot.  A run looks for the files below the path
that the setting is read as.  Whatever the spelling, both are the same directory.
-/

namespace SchemaCodegen

open Json (Value)

namespace TypedConfig

/-- The output directory as the plugins are told it. -/
def toldDirectory (settings : TypedConfig) : Text :=
  if settings.outputDir = "." then [] else settings.outputDir

theorem outputFlag_eq (settings : TypedConfig) (plugin : Text) :
    settings.outputFlag plugin = "-o" ++ plugin ++ settings.toldDirectory := by
  unfold outputFlag toldDirectory
  split
  case isTrue => rw [List.append_nil]
  case isFalse => rfl

/-- Nothing at all names the working directory, as a single dot does. -/
theorem ofText_toldDirectory (settings : TypedConfig) :
    Path.ofText settings.toldDirectory = settings.outputPath := by
  unfold toldDirectory outputPath
  split
  case isTrue here =>
    rw [here]
    decide +kernel
  case isFalse => rfl

/--
Both commands of the schema compiler tell their plugins the directory, right behind the
plugin's name.  The one for the bindings has one more argument, before the schema.
-/
def TellsPlugins (settings : TypedConfig) (directory schema : Text) : Prop :=
  ∃ compiler includes,
    Command.capnp settings.config schema false =
      .ok ⟨compiler, includes ++
        ["-o" ++ settings.plainPlugin ++ directory, schema]⟩ ∧
    Command.capnp settings.config schema true =
      .ok ⟨compiler, includes ++
        ["-o" ++ settings.plainPlugin ++ directory,
          "-o" ++ settings.codecPlugin ++ directory, schema]⟩

theorem tellsPlugins_toldDirectory (settings : TypedConfig) (schema : Text) :
    settings.TellsPlugins settings.toldDirectory schema := by
  refine ⟨.string settings.compiler,
    ["-I" ++ settings.schemaDir, "-I" ++ settings.goCapnpDir, "compile"], ?_, ?_⟩
  · rw [capnp_config, compileCommand, outputFlag_eq]
    rfl
  · rw [capnp_config, compileCommand, outputFlag_eq, outputFlag_eq]
    rfl

end TypedConfig

namespace Generation

/-- The file that is named after a schema below a directory. -/
def fileBelow (directory : Text) (source : Schema.Source) (ending : Text) : Path :=
  (Path.ofText directory).join (.ofText (source.name ++ ending))

namespace TypedJob

variable {typed : TypedJob}

/-- What a run does with files, it does below the directory. -/
structure WorksBelow
    (typed : TypedJob)
    (directory : Text)
    (tree : FileTree)
    (final : Progress) : Prop where
  /-- The plain structs are compiled by the first command. -/
  plain : Command.capnp typed.settings.config typed.source.path.text false =
    .ok (typed.command .plain)
  /-- The bindings are compiled by the second one. -/
  bindings : Command.capnp typed.settings.config typed.source.path.text true =
    .ok (typed.command .capnp)
  /-- The third one reads the plain structs and writes the encoders below the directory. -/
  encoders : (typed.command .msgp).words =
    [.string typed.settings.encoder,
      .string ("-o=" ++ (fileBelow directory typed.source ".msgp.go").text),
      .string ("-tests=" ++ if typed.settings.generateTests then "true" else "false"),
      .string ("-file=" ++ (fileBelow directory typed.source ".go").text)]
  /-- These are the commands that the rounds of the run launch. -/
  launches_eq : final.launches.map Launch.words =
    (typed.rounds tree).map fun round => (typed.command round.artifact).words
  /-- A round renames the bindings below the directory once its command has succeeded. -/
  renames : ∀ round ∈ typed.rounds tree, round.artifact = .capnp → round.result.ok = true →
    round.after =
      (TextFile.update typed.policy round.launched
        (fileBelow directory typed.source ".capnp.go")
        (Rename.renameWith typed.settings.mode (.string typed.settings.suffix)
          typed.source.typeNames)).1
  /-- Any other round leaves the tree as its command has left it. -/
  keeps : ∀ round ∈ typed.rounds tree, round.artifact ≠ .capnp ∨ round.result.ok = false →
    round.after = round.launched
  /-- The tree is the one that the last round leaves behind. -/
  tree_eq : final.tree =
    ((typed.rounds tree).getLast?.map Round.after).getD
      (tree.makeDirectories (.ofText directory)).1
  /-- The artifacts that are listed lie below the directory. -/
  artifacts_eq : ∀ outcome, final.result = .ok outcome →
    outcome.artifacts = (outcome.history.filterMap artifactOf?).map fun artifact =>
      fileBelow directory typed.source artifact.ending

theorem path_eq_fileBelow (typed : TypedJob) (artifact : Artifact) :
    typed.path artifact =
      fileBelow typed.settings.toldDirectory typed.source artifact.ending := by
  rw [path, Artifact.path, fileBelow, TypedConfig.ofText_toldDirectory]

/-! ## The artifacts of an outcome -/

/-- The artifacts of an outcome are those of the states in its history. -/
def ListsArtifacts (typed : TypedJob) (outcome : Outcome) : Prop :=
  outcome.artifacts = (outcome.history.filterMap artifactOf?).map typed.path

section Lists

variable {outcome : Outcome}

theorem ListsArtifacts.enter
    (lists : typed.ListsArtifacts outcome)
    {state : State}
    (none : artifactOf? state = none) :
    typed.ListsArtifacts (outcome.enter state) := by
  simpa [ListsArtifacts, Outcome.enter, none] using lists

theorem ListsArtifacts.abort
    (lists : typed.ListsArtifacts outcome)
    (cause : Text)
    (detail : Option Text) :
    typed.ListsArtifacts (outcome.abort cause detail) := by
  have none : artifactOf? .aborted = none := rfl
  simpa [ListsArtifacts, Outcome.abort, none] using lists

theorem ListsArtifacts.complete
    (lists : typed.ListsArtifacts outcome)
    (artifact : Artifact) :
    typed.ListsArtifacts
      ((outcome.addArtifact (typed.path artifact)).enter artifact.state) := by
  have named : artifactOf? artifact.state = some artifact := by cases artifact <;> rfl
  rw [ListsArtifacts] at lists ⊢
  simp [Outcome.addArtifact, Outcome.enter, named, lists]

theorem ListsArtifacts.close
    (lists : typed.ListsArtifacts outcome)
    (round : Round) :
    typed.ListsArtifacts (typed.close round outcome).1 := by
  unfold TypedJob.close
  split
  case isTrue =>
    split
    case h_1 => exact lists.complete round.artifact
    case h_2 =>
      split
      case isTrue => exact lists.abort _ _
      case isFalse => exact lists
  case isFalse => exact lists.abort _ _

end Lists

namespace Course

variable
  {artifacts : List Artifact}
  {before after : Progress}
  {rounds : List Round}

theorem listsArtifacts
    (course : typed.Course artifacts before rounds after)
    (lists : typed.ListsArtifacts before.outcome) :
    typed.ListsArtifacts after.outcome := by
  have carried {round : Round} {progress : Progress}
      (running : progress.status = .running)
      (earlier : typed.ListsArtifacts progress.outcome) :
      typed.ListsArtifacts (typed.carryOut round progress).outcome := by
    have outcome_eq : (typed.carryOut round progress).outcome =
        (typed.close round progress.outcome).1 :=
      congrArg Prod.fst (typed.follows_carryOut round running).closed
    rw [outcome_eq]
    exact earlier.close round
  induction course with
  | finished => exact lists
  | stopped running _ _ => exact carried running lists
  | continued running _ _ _ inductionHypothesis =>
      exact inductionHypothesis (carried running lists)

end Course

theorem listsArtifacts_of_result
    {tree : FileTree}
    {outcome : Outcome}
    (returned : (run typed.job tree).result = .ok outcome) :
    typed.ListsArtifacts outcome := by
  have started : typed.ListsArtifacts (Outcome.start typed.source.directives) := rfl
  rcases made : tree.makeDirectories typed.settings.outputPath with ⟨created, _ | fault⟩
  · obtain ⟨after, course, final⟩ := run_of_created made
    have lists := course.listsArtifacts started
    rw [final, Progress.andThen] at returned
    split at returned
    case h_1 =>
      rw [← Except.ok.inj returned]
      exact lists.enter rfl
    case h_2 =>
      rw [Progress.result] at returned
      split at returned
      case h_1 => contradiction
      case h_2 =>
        rw [← Except.ok.inj returned]
        exact lists
  · rcases (run_of_not_created made).closed with ⟨detail, ended, outcome_eq⟩ | ⟨_, faulted⟩
    · rw [result_of_ended ended, outcome_eq] at returned
      rw [← Except.ok.inj returned]
      exact started.abort _ detail
    · rw [result_of_faulted faulted] at returned
      contradiction

/-! ## The rounds of a run -/

theorem after_round_capnp
    {index : Nat}
    {tree : FileTree}
    (ended : (typed.round index .capnp tree).result.ok = true) :
    (typed.round index .capnp tree).after =
      (typed.rename (typed.round index .capnp tree).launched).1 := by
  simp only [round, finished] at ended ⊢
  simp only [ended, and_self, if_true]
  rcases typed.rename _ with ⟨after, fault | content⟩ <;> rfl

theorem after_round_of_not_renamed
    {index : Nat}
    {artifact : Artifact}
    {tree : FileTree}
    (other : artifact ≠ .capnp ∨ (typed.round index artifact tree).result.ok = false) :
    (typed.round index artifact tree).after = (typed.round index artifact tree).launched := by
  rcases other with different | failed
  · exact (typed.round_of_ne different index tree).1
  · exact after_eq_of_failed (Round.failed_iff.mpr (Or.inl failed))

/-- A run launches what its rounds do and ends with the tree of the last one. -/
structure MadeOfRounds (typed : TypedJob) (tree : FileTree) (final : Progress) : Prop where
  /-- Each round launches one command. -/
  launches_eq : final.launches =
    (typed.rounds tree).map fun round => typed.launch round.artifact
  /-- The tree is the one that the last round leaves behind. -/
  tree_eq : final.tree =
    ((typed.rounds tree).getLast?.map Round.after).getD
      (tree.makeDirectories typed.settings.outputPath).1
  /-- Each round does what a round for its artifact does. -/
  round_eq : ∀ round ∈ typed.rounds tree,
    ∃ index before, round = typed.round index round.artifact before

theorem madeOfRounds_run (typed : TypedJob) (tree : FileTree) :
    typed.MadeOfRounds tree (run typed.job tree) := by
  rcases made : tree.makeDirectories typed.settings.outputPath with ⟨created, _ | fault⟩
  · obtain ⟨after, course, final⟩ := run_of_created made
    refine ⟨?_, ?_, fun round => course.exists_round_eq⟩
    · rw [final, launches_andThen_finish, course.launches_eq]
      rfl
    · rw [final, tree_andThen_finish, course.tree_eq, made]
  · have uncreated := run_of_not_created made
    have rounds_eq : typed.rounds tree = [] := by rw [rounds, made]
    refine ⟨?_, ?_, by simp [rounds_eq]⟩
    · rw [uncreated.launches, rounds_eq]
      rfl
    · rw [uncreated.tree, rounds_eq, made]
      rfl

/-! ## The directory of a run -/

theorem worksBelow_run (typed : TypedJob) (tree : FileTree) :
    typed.WorksBelow typed.settings.toldDirectory tree (run typed.job tree) := by
  have rounds := typed.madeOfRounds_run tree
  refine ⟨typed.settings.capnp_config _ false, typed.settings.capnp_config _ true,
    ?_, ?_, ?_, ?_, ?_, ?_⟩
  · simp only [command, path_eq_fileBelow]
    rfl
  · rw [rounds.launches_eq, List.map_map]
    rfl
  · intro round member bindings ended
    obtain ⟨index, before, round_eq⟩ := rounds.round_eq round member
    rw [bindings] at round_eq
    rw [round_eq] at ended ⊢
    rw [after_round_capnp ended, rename, path_eq_fileBelow]
    rfl
  · intro round member other
    obtain ⟨index, before, round_eq⟩ := rounds.round_eq round member
    rw [round_eq] at other ⊢
    exact after_round_of_not_renamed other
  · rw [TypedConfig.ofText_toldDirectory]
    exact rounds.tree_eq
  · intro outcome returned
    have paths : typed.path = fun artifact =>
        fileBelow typed.settings.toldDirectory typed.source artifact.ending :=
      funext typed.path_eq_fileBelow
    rw [← paths]
    exact listsArtifacts_of_result returned

/--
The schema compiler and the run agree on the directory of the generated files.  The text
that both plugins are told names the output directory of the run, and with the name of the
schema it gives the path of every file that is renamed, listed or told to the third command.
-/
theorem exists_directory_toldAndUsed
    (typed : TypedJob)
    (tree : FileTree) :
    ∃ directory,
      typed.settings.config.outputPath = .ok (.ofText directory) ∧
      (∀ schema, typed.settings.TellsPlugins directory schema) ∧
      typed.WorksBelow directory tree (run typed.job tree) := by
  refine ⟨typed.settings.toldDirectory, ?_, ?_, typed.worksBelow_run tree⟩
  · rw [TypedConfig.ofText_toldDirectory]
    rfl
  · exact typed.settings.tellsPlugins_toldDirectory

end TypedJob
end Generation
end SchemaCodegen
