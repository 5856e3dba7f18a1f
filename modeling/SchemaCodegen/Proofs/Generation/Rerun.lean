import SchemaCodegen.Proofs.Command.Deposit
import SchemaCodegen.Proofs.Generation.Course
import SchemaCodegen.Proofs.TextFile.Replacement

/-!
# Running again

Commands that leave the same files behind each time make a second run repeat the
first one: every file is written again before it is read, so the bindings are
renamed in the same text as before.
-/

namespace SchemaCodegen

/--
What the commands of a run do, told by how many were launched before: each leaves
fixed files behind and ends in a fixed way.
-/
structure Script where
  /-- Whether each command is told to the log first. -/
  isEchoing : Bool
  /-- What a command leaves behind. -/
  deposits : Nat → List Deposit
  /-- How a command ends. -/
  result : Nat → Command → CommandResult

/-- The script of some executions; later commands are idle. -/
def Script.ofExecutions (executions : List Execution) : Script where
  isEchoing := true
  deposits := fun index => (executions.getD index .idle).deposits
  result := fun index command =>
    (executions.getD index .idle).ending.result command.program

namespace Launcher

/-- Runs commands as a script tells. -/
def ofScript (script : Script) : Launcher where
  isEchoing := script.isEchoing
  effect index command tree :=
    (Deposit.installAll (script.deposits index) tree, script.result index command)

theorem ofExecutions_eq (executions : List Execution) :
    ofExecutions executions = ofScript (.ofExecutions executions) := rfl

end Launcher

namespace Generation

open FileTree

namespace TypedJob

/-! ## Rounds of a script -/

/-- A script leaves the bindings behind: one of the files is spelled like them. -/
def WritesBindings (typed : TypedJob) (deposits : List Deposit) (tree : FileTree) : Prop :=
  ∃ deposit ∈ deposits, deposit.content ≠ none ∧
    tree.spelled deposit.path = tree.spelled (typed.path .capnp)

instance (typed : TypedJob) (deposits : List Deposit) (tree : FileTree) :
    Decidable (typed.WritesBindings deposits tree) :=
  inferInstanceAs (Decidable (∃ deposit ∈ deposits, _ ∧ _))

section Scripted

variable
  {typed : TypedJob}
  {script : Script}
  (scripted : typed.launcher = .ofScript script)
include scripted

theorem effect_eq
    (index : Nat)
    (command : Command)
    (tree : FileTree) :
    typed.launcher.effect index command tree =
      (Deposit.installAll (script.deposits index) tree, script.result index command) := by
  rw [scripted]
  rfl

/--
The bindings are written before they are renamed, so they are renamed in the same
text again and the round as a whole only overwrites files.
-/
theorem repeats_round_capnp
    {index : Nat}
    {tree : FileTree}
    (succeeded : (typed.round index .capnp tree).succeeded = true)
    (lands : Deposit.AllLand (script.deposits index) tree)
    (writesBindings : typed.WritesBindings (script.deposits index) tree) :
    ∃ writes,
      Repeats (fun tree => (typed.round index .capnp tree).after) writes tree ∧
      ∀ other, Grows (typed.round index .capnp tree).after other →
        (typed.round index .capnp other).succeeded = true := by
  obtain ⟨early, repeats, written⟩ := lands.repeats
  obtain ⟨content, renamed⟩ := rename_of_succeeded succeeded
  have ended : (script.result index (typed.command .capnp)).ok = true := by
    have result_eq : (typed.round index .capnp tree).result =
        script.result index (typed.command .capnp) :=
      congrArg Prod.snd (effect_eq scripted index (typed.command .capnp) tree)
    rw [← result_eq]
    exact (Round.succeeded_iff.mp succeeded).1
  simp only [effect_eq scripted] at renamed
  obtain ⟨bytes, parent, name, replaces, again⟩ := (TextFile.update_ok renamed).again
  have writtenBindings : parent ++ [name] ∈ early.map Prod.fst := by
    obtain ⟨deposit, member, isFile, spelled_eq⟩ := writesBindings
    have leads := leadsTo_of_place replaces.placed
    rw [← leads.spelled_eq, repeats.leaves.grows.spelled_eq, ← spelled_eq]
    exact written deposit member isFile
  -- The rename in a grown tree reads what the command has just written there.
  have roundAgain (other : FileTree)
      (grows : Grows (typed.round index .capnp tree).after other) :
      (typed.round index .capnp other).after =
          overwrite (early ++ [(parent ++ [name], bytes)]) other ∧
        (typed.round index .capnp other).succeeded = true := by
    have growsLaunched := replaces.grows.trans grows
    have launchedAgain := repeats.again other growsLaunched
    have growsAgain := growsLaunched.trans (repeats.grows_again growsLaunched)
    have same_entry :
        FileTree.entry? (overwrite early other) (parent ++ [name]) =
          FileTree.entry? (Deposit.installAll (script.deposits index) tree)
            (parent ++ [name]) := by
      have overwritten := repeats.leaves.overwrite_eq
      rw [entry?_overwrite writtenBindings growsLaunched.workingDirectory, overwritten]
    have renamedAgain :
        typed.rename (typed.launcher.effect index (typed.command .capnp) other).1 =
          ((overwrite early other).setContent (parent ++ [name]) bytes, .ok content) := by
      rw [effect_eq scripted, launchedAgain]
      exact again _ growsAgain same_entry
    have endedAgain :
        (typed.launcher.effect index (typed.command .capnp) other).2.ok = true := by
      rw [effect_eq scripted]
      exact ended
    rw [overwrite_append]
    exact round_of_rename endedAgain renamedAgain
  refine ⟨early ++ [(parent ++ [name], bytes)], ⟨?_, fun other grows => ?_⟩, ?_⟩
  · have leaves : Leaves (Deposit.installAll (script.deposits index) tree)
        [(parent ++ [name], bytes)] (typed.round index .capnp tree).after := by
      rw [replaces.after_eq]
      exact .file bytes .nothing replaces.noDirectory
    exact repeats.leaves.append leaves
  · exact (roundAgain other grows).1
  · exact fun other grows => (roundAgain other grows).2

/-- A round that succeeds only overwrites files when it is carried out again. -/
theorem repeats_round
    {index : Nat}
    {artifact : Artifact}
    {tree : FileTree}
    (succeeded : (typed.round index artifact tree).succeeded = true)
    (lands : Deposit.AllLand (script.deposits index) tree)
    (writesBindings : artifact = .capnp →
      typed.WritesBindings (script.deposits index) tree) :
    ∃ writes,
      Repeats (fun tree => (typed.round index artifact tree).after) writes tree ∧
      ∀ other, Grows (typed.round index artifact tree).after other →
        (typed.round index artifact other).succeeded = true := by
  by_cases bindings : artifact = .capnp
  · subst bindings
    exact repeats_round_capnp scripted succeeded lands (writesBindings rfl)
  · obtain ⟨writes, repeats, _⟩ := lands.repeats
    have after_eq : (fun tree => (typed.round index artifact tree).after) =
        Deposit.installAll (script.deposits index) := by
      funext other
      rw [(typed.round_of_ne bindings index other).1, effect_eq scripted]
    refine ⟨writes, by rwa [after_eq], fun other _ => ?_⟩
    rw [(typed.round_of_ne bindings index tree).2, effect_eq scripted] at succeeded
    rw [(typed.round_of_ne bindings index other).2, effect_eq scripted]
    exact succeeded

/-- A round that does not succeed is the same round in a tree that its command makes the same. -/
theorem round_eq_of_installAll_eq
    {index : Nat}
    {artifact : Artifact}
    {tree other : FileTree}
    (same : Deposit.installAll (script.deposits index) other =
      Deposit.installAll (script.deposits index) tree) :
    typed.round index artifact other =
      { typed.round index artifact tree with before := other } := by
  unfold round
  simp only [effect_eq scripted, same]

end Scripted

/-! ## Runs of a script -/

theorem carryOut_of_tree
    (typed : TypedJob)
    (round : Round)
    (progress : Progress)
    (other : FileTree) :
    typed.carryOut round { progress with tree := other } = typed.carryOut round progress := by
  unfold carryOut told
  cases typed.launcher.isEchoing <;> rfl

theorem produceAll_cons_of_tree
    (typed : TypedJob)
    {progress : Progress}
    (running : progress.status = .running)
    (artifact : Artifact)
    (rest : List Artifact)
    (other : FileTree) :
    typed.produceAll (.ofLauncher typed.launcher) (artifact :: rest)
        { progress with tree := other } =
      typed.produceAll (.ofLauncher typed.launcher) rest
        (typed.carryOut (typed.round progress.launches.length artifact other) progress) := by
  have runningThere : { progress with tree := other }.status = .running := running
  rw [produceAll_cons typed runningThere, carryOut_of_tree]

theorem carryOut_of_succeeded
    (typed : TypedJob)
    {first second : Round}
    (same : first.artifact = second.artifact)
    (succeededFirst : first.succeeded = true)
    (succeededSecond : second.succeeded = true)
    (progress : Progress) :
    typed.carryOut first progress =
      { typed.carryOut second progress with tree := first.after } := by
  rw [Round.succeeded_iff] at succeededFirst succeededSecond
  unfold carryOut told
  simp only [succeededFirst, succeededSecond, same, if_true, true_and]
  by_cases bindings : second.artifact = .capnp
  · simp only [bindings, if_true]
    cases typed.launcher.isEchoing <;> rfl
  · simp only [bindings, if_false]
    cases typed.launcher.isEchoing <;> rfl

/--
The rest of a run leaves files behind, and takes the same course from every later
tree in which writing them once more gives the tree that the run leaves.
-/
theorem Course.repeats
    {typed : TypedJob}
    {script : Script}
    (scripted : typed.launcher = .ofScript script)
    {artifacts : List Artifact}
    {before after : Progress}
    {rounds : List Round}
    (course : typed.Course artifacts before rounds after)
    (lands : ∀ round ∈ rounds,
      Deposit.AllLand (script.deposits round.index) round.before)
    (writesBindings : ∀ round ∈ rounds, round.artifact = .capnp → round.result.ok = true →
      typed.WritesBindings (script.deposits round.index) round.before) :
    ∃ writes, Leaves before.tree writes after.tree ∧
      ∀ other, Grows after.tree other → overwrite writes other = after.tree →
        typed.produceAll (.ofLauncher typed.launcher) artifacts
          { before with tree := other } = after := by
  induction course with
  | finished running =>
      refine ⟨[], .nothing, fun other _ same => ?_⟩
      rw [overwrite_nil] at same
      rw [same]
      rfl
  | @stopped artifact rest round before running same failed =>
      subst same
      have follows := typed.follows_carryOut
        (typed.round before.launches.length artifact before.tree) running
      have landsFirst :
          Deposit.AllLand (script.deposits before.launches.length) before.tree :=
        lands _ List.mem_cons_self
      obtain ⟨writes, repeats, _⟩ := landsFirst.repeats
      have tree_eq : (typed.carryOut
          (typed.round before.launches.length artifact before.tree) before).tree =
          Deposit.installAll (script.deposits before.launches.length) before.tree := by
        rw [follows.tree, after_eq_of_failed failed, effect_eq scripted]
      rw [tree_eq]
      refine ⟨writes, repeats.leaves, fun other grows overwritten => ?_⟩
      have installed := (repeats.again other grows).trans overwritten
      rw [produceAll_cons_of_tree typed running,
        round_eq_of_installAll_eq scripted installed]
      exact typed.produceAll_of_not_running _ (follows.not_running failed) rest
  | @continued artifact rest round rounds before after running same succeeded _
      inductionHypothesis =>
      subst same
      have follows := typed.follows_carryOut
        (typed.round before.launches.length artifact before.tree) running
      have ended := (Round.succeeded_iff.mp succeeded).1
      obtain ⟨early, repeatsRound, succeedsAgain⟩ :=
        repeats_round scripted succeeded (lands _ List.mem_cons_self)
          fun bindings => writesBindings _ List.mem_cons_self bindings ended
      obtain ⟨late, leaves, again⟩ := inductionHypothesis
        (fun round member => lands round (List.mem_cons_of_mem _ member))
        (fun round member => writesBindings round (List.mem_cons_of_mem _ member))
      rw [follows.tree] at leaves
      refine ⟨early ++ late, repeatsRound.leaves.append leaves,
        fun other grows overwritten => ?_⟩
      have growsRound := leaves.grows.trans grows
      have growsAgain := grows.trans (repeatsRound.grows_again growsRound)
      have roundAgain := repeatsRound.again other growsRound
      have same_artifact :
          (typed.round before.launches.length artifact other).artifact =
            (typed.round before.launches.length artifact before.tree).artifact := rfl
      rw [overwrite_append] at overwritten
      rw [produceAll_cons_of_tree typed running,
        typed.carryOut_of_succeeded same_artifact (succeedsAgain other growsRound) succeeded]
      simp only [roundAgain]
      exact again _ growsAgain overwritten

/--
What lets a run be repeated: the output directory can be created, no file is in
the way of a directory nor a directory in the way of a file when the commands
leave their files behind, and the command for the bindings writes them.
-/
structure Repeatable (typed : TypedJob) (script : Script) (tree : FileTree) : Prop where
  /-- The output directory can be created. -/
  created : (tree.makeDirectories typed.settings.outputPath).2 = none
  /-- Everything that a launched command leaves behind lands. -/
  lands : ∀ round ∈ typed.rounds tree,
    Deposit.AllLand (script.deposits round.index) round.before
  /-- The command for the bindings writes them, if it is launched and succeeds. -/
  writesBindings : ∀ round ∈ typed.rounds tree,
    round.artifact = .capnp → round.result.ok = true →
      typed.WritesBindings (script.deposits round.index) round.before

/--
A second run of the same script repeats the first one: it leaves the same tree,
launches the same commands and has the same outcome.
-/
theorem run_run
    (typed : TypedJob)
    (script : Script)
    (scripted : typed.launcher = .ofScript script)
    (tree : FileTree)
    (repeatable : typed.Repeatable script tree) :
    run typed.job (run typed.job tree).tree = run typed.job tree := by
  rcases made : tree.makeDirectories typed.settings.outputPath with ⟨created, fault⟩
  obtain rfl : fault = none := by
    have allowed := repeatable.created
    rwa [made] at allowed
  obtain ⟨after, course, final⟩ := run_of_created made
  obtain ⟨writes, leaves, again⟩ :=
    course.repeats scripted repeatable.lands repeatable.writesBindings
  have tree_eq : (run typed.job tree).tree = after.tree := by
    rw [final, tree_andThen_finish]
  have madeAgain := FileTree.makeDirectories_again made leaves.grows
  have repeated := again after.tree (Grows.refl _) leaves.overwrite_eq
  have rerun := run_jobWith_of_created madeAgain (.ofLauncher typed.launcher)
  rw [tree_eq, final]
  exact rerun.trans (congrArg (fun progress => Progress.andThen progress finish) repeated)

/-- Bindings that are written again are renamed again, and only once. -/
theorem run_run_renamed :
    let bindings : Deposit :=
      ⟨.ofText "gen/user.capnp.go", some "type User int".toUTF8.data.toList⟩
    let executions : List Execution := [.idle, ⟨[bindings], .exited 0⟩]
    let typed : TypedJob :=
      { settings := { outputDir := "gen" }
        source := ⟨.ofText "user.capnp", Text.ofString "$Codec.capnp; struct User"⟩
        policy := .strict
        launcher := .ofExecutions executions }
    let after := run typed.job ⟨["work"], []⟩
    typed.Repeatable (.ofExecutions executions) ⟨["work"], []⟩ ∧
      after.tree.entry? ["work", "gen", "user.capnp.go"] =
        some (.file "type UserCapn int".toUTF8.data.toList) ∧
      run typed.job after.tree = after := by
  intro bindings executions typed after
  have repeatable : typed.Repeatable (.ofExecutions executions) ⟨["work"], []⟩ :=
    ⟨by decide +kernel, by decide +kernel, by decide +kernel⟩
  refine ⟨repeatable, by decide +kernel, ?_⟩
  exact run_run typed _ (Launcher.ofExecutions_eq executions) ⟨["work"], []⟩ repeatable

end TypedJob
end Generation
end SchemaCodegen
