import SchemaCodegen.Proofs.Artifact.Naming
import SchemaCodegen.Proofs.Generation.History

/-!
# Launches keep to a plan

The schema decides which commands a run is to launch.  A run launches them in
order, each at most once, and stops at the first one that fails or whose output
cannot be renamed.
-/

namespace SchemaCodegen
namespace Generation
namespace TypedJob

/-- The launches of a run in which nothing fails. -/
def plan (typed : TypedJob) : List Launch :=
  typed.wanted.map typed.launch

/-- A run returns an outcome that tells its end. -/
def IsDone (final : Progress) : Prop :=
  ∃ outcome, final.result = .ok outcome ∧ outcome.state = .done

/-- The launches of a run, and why there are no more of them. -/
structure KeepsToPlan (typed : TypedJob) (tree : FileTree) (final : Progress) : Prop where
  /-- The first command compiles the schema to plain structs. -/
  plain : Command.capnp typed.settings.config typed.source.path.text false =
    .ok (typed.command .plain)
  /-- The second one compiles it to bindings too. -/
  bindings : Command.capnp typed.settings.config typed.source.path.text true =
    .ok (typed.command .capnp)
  /-- The third one reads the plain structs. -/
  encoders : Command.msgp typed.settings.config (typed.path .plain).text
    (typed.path .msgp).text = .ok (typed.command .msgp)
  /-- The bindings that are renamed are not what the third command reads. -/
  distinct : (typed.path .plain).text ≠ (typed.path .capnp).text
  /-- Each round launches its command. -/
  launches_eq : final.launches =
    (typed.rounds tree).map fun round => typed.launch round.artifact
  /-- The launches are the first ones of the plan. -/
  isPrefix : final.launches <+: typed.plan
  /-- Nothing is launched exactly if the output directory cannot be created. -/
  eq_nil_iff : final.launches = [] ↔
    (tree.makeDirectories typed.settings.outputPath).2 ≠ none
  /-- No command is launched after a failure. -/
  succeeded : ∀ round ∈ (typed.rounds tree).dropLast, round.succeeded = true
  /-- The last launch fails, or its output cannot be renamed, or it ends the plan. -/
  last : ∀ round, (typed.rounds tree).getLast? = some round →
    CommandFailed round ∨ RenamingFailed round ∨
      round.succeeded = true ∧ final.launches = typed.plan
  /-- The run comes to its end exactly if the plan is carried out without a failure. -/
  isDone_iff : IsDone final ↔
    final.launches = typed.plan ∧ ∀ round ∈ typed.rounds tree, round.succeeded = true
  /-- No command is launched twice. -/
  nodup : (final.launches.map Launch.words).Nodup
  /-- Only the output of the third command is discarded, and only if little is to be told. -/
  discardsOutput_iff : ∀ launch ∈ final.launches,
    launch.discardsOutput = true ↔
      launch = typed.launch .msgp ∧ typed.settings.verbose = false

/-! ## The commands of the plan -/

/-- The number of words tells which command is launched. -/
theorem words_command_injective
    (typed : TypedJob)
    {first second : Artifact}
    (same : (typed.command first).words = (typed.command second).words) :
    first = second := by
  have lengths := congrArg List.length same
  cases first <;> cases second <;>
    first
    | rfl
    | simp [command, Command.words, TypedConfig.compileCommand,
        TypedConfig.encodeCommand] at lengths

theorem nodup_wanted (typed : TypedJob) : typed.wanted.Nodup := by
  unfold wanted
  cases typed.source.directives.capnp <;> cases typed.source.directives.msgp <;> decide

theorem discardsOutput_launch
    (typed : TypedJob)
    (artifact : Artifact) :
    (typed.launch artifact).discardsOutput = true ↔
      typed.launch artifact = typed.launch .msgp ∧ typed.settings.verbose = false := by
  by_cases last : artifact = .msgp
  · subst last
    cases quiet : typed.settings.verbose <;>
      simp [launch, forward, Launch.discardsOutput, Json.Value.isTruthy, quiet]
  · have forwarded : typed.forward artifact = .bool true := by
      cases artifact with
      | msgp => contradiction
      | plain => rfl
      | capnp => rfl
    constructor
    · intro discards
      simp [launch, Launch.discardsOutput, Json.Value.isTruthy, forwarded] at discards
    · rintro ⟨same, _⟩
      exact absurd (typed.words_command_injective (congrArg Launch.words same)) last

/-! ## Where the launches stop -/

theorem BreaksOff.not_isDone
    {typed : TypedJob}
    {artifacts done later : List Artifact}
    {before after : Progress}
    {rounds : List Round}
    {failing : Round}
    (off : typed.BreaksOff artifacts before rounds after done later failing) :
    ¬IsDone after := by
  rintro ⟨outcome, returned, ends⟩
  rcases typed.close_cases off.reason (typed.completeAll done before.outcome) with
    ⟨cause, _, detail, aborted⟩ | ⟨fault, faulted⟩
  · obtain ⟨outcome_eq, ended⟩ := Prod.mk.inj (off.closed.trans aborted)
    rw [result_of_ended ended, outcome_eq] at returned
    rw [← Except.ok.inj returned, Outcome.state_abort] at ends
    contradiction
  · have status_eq : after.status = .faulted fault :=
      (congrArg Prod.snd off.closed).trans faulted
    rw [Progress.result, status_eq] at returned
    contradiction

theorem isDone_finish (progress : Progress) : IsDone (finish progress) :=
  ⟨progress.outcome.enter .done, rfl, Outcome.state_enter _ _⟩

section Course

variable
  {typed : TypedJob}
  {artifacts : List Artifact}
  {before after : Progress}
  {rounds : List Round}

theorem BreaksOff.not_all_succeeded
    {done later : List Artifact}
    {failing : Round}
    (off : typed.BreaksOff artifacts before rounds after done later failing)
    (all : ∀ round ∈ rounds, round.succeeded = true) :
    False := by
  have succeeded := all failing (List.mem_of_getLast? off.last)
  simp [off.failed] at succeeded

/-- A run comes to its end exactly if all its rounds succeed. -/
theorem Course.isDone_iff (course : typed.Course artifacts before rounds after) :
    IsDone (after.andThen finish) ↔ ∀ round ∈ rounds, round.succeeded = true := by
  rcases course.runsOut_or_breaksOff with out | ⟨done, later, failing, off⟩
  · rw [andThen_of_running out.running]
    exact ⟨fun _ => out.succeeded, fun _ => isDone_finish after⟩
  · rw [andThen_of_not_running off.not_running]
    exact ⟨fun ends => absurd ends off.not_isDone, fun all => (off.not_all_succeeded all).elim⟩

theorem Course.artifacts_eq
    (course : typed.Course artifacts before rounds after)
    (all : ∀ round ∈ rounds, round.succeeded = true) :
    rounds.map Round.artifact = artifacts := by
  rcases course.runsOut_or_breaksOff with out | ⟨done, later, failing, off⟩
  · exact out.artifacts_eq
  · exact (off.not_all_succeeded all).elim

/-- The last round fails for one of two reasons, or all rounds succeed. -/
theorem Course.last_cases
    (course : typed.Course artifacts before rounds after)
    {last : Round}
    (last_eq : rounds.getLast? = some last) :
    CommandFailed last ∨ RenamingFailed last ∨
      ∀ round ∈ rounds, round.succeeded = true := by
  rcases course.runsOut_or_breaksOff with out | ⟨done, later, failing, off⟩
  · exact Or.inr (Or.inr out.succeeded)
  · have failing_eq := off.last
    rw [last_eq] at failing_eq
    rw [Option.some.inj failing_eq]
    exact off.reason.imp_right Or.inl

end Course

theorem nodup_words
    {typed : TypedJob}
    {rounds : List Round}
    (leads : rounds.map Round.artifact <+: typed.wanted) :
    ((rounds.map fun round => typed.launch round.artifact).map Launch.words).Nodup := by
  have nodup := leads.sublist.nodup typed.nodup_wanted
  have different := List.pairwise_map.mp nodup
  rw [List.map_map]
  refine List.pairwise_map.mpr (different.imp ?_)
  intro first second apart same
  exact apart (typed.words_command_injective same)

theorem plan_ne_nil (typed : TypedJob) : typed.plan ≠ [] := by
  simp [plan, wanted]

theorem roundsFrom_cons_ne_nil
    (typed : TypedJob)
    (artifact : Artifact)
    (rest : List Artifact)
    (index : Nat)
    (tree : FileTree) :
    typed.roundsFrom (artifact :: rest) index tree ≠ [] := by
  rw [roundsFrom]
  split <;> simp

theorem path_plain_ne_path_capnp (typed : TypedJob) :
    (typed.path .plain).text ≠ (typed.path .capnp).text := by
  intro same
  have same_artifact : Artifact.plain = Artifact.capnp :=
    Artifact.path_text_injective typed.settings.outputPath typed.source same
  simp at same_artifact

theorem discardsOutput_iff_of_prefix
    {typed : TypedJob}
    {launches : List Launch}
    (leads : launches <+: typed.plan)
    (launch : Launch)
    (member : launch ∈ launches) :
    launch.discardsOutput = true ↔
      launch = typed.launch .msgp ∧ typed.settings.verbose = false := by
  obtain ⟨artifact, _, rfl⟩ := List.mem_map.mp (leads.subset member)
  exact typed.discardsOutput_launch artifact

theorem Uncreated.not_isDone
    {created : FileTree}
    {started final : Progress}
    (uncreated : Uncreated created started final) :
    ¬IsDone final := by
  rintro ⟨outcome, returned, done⟩
  rcases uncreated.closed with ⟨detail, ended, outcome_eq⟩ | ⟨fault, faulted⟩
  · rw [result_of_ended ended, outcome_eq] at returned
    rw [← Except.ok.inj returned, Outcome.state_abort] at done
    contradiction
  · rw [Progress.result, faulted] at returned
    contradiction

theorem keepsToPlan_of_uncreated
    (typed : TypedJob)
    {tree created : FileTree}
    {fault : AccessFault}
    {final : Progress}
    (made : tree.makeDirectories typed.settings.outputPath = (created, some fault))
    (uncreated : Uncreated created (begin typed.job tree) final) :
    typed.KeepsToPlan tree final := by
  have launches_eq : final.launches = [] := uncreated.launches
  have rounds_eq : typed.rounds tree = [] := by
    rw [rounds, made]
  refine ⟨typed.settings.capnp_config _ false, typed.settings.capnp_config _ true,
    typed.settings.msgp_config _ _, typed.path_plain_ne_path_capnp,
    ?_, ?_, ?_, ?_, ?_, ?_, ?_, ?_⟩
  · rw [launches_eq, rounds_eq]
    rfl
  · rw [launches_eq]
    exact List.nil_prefix
  · simp [launches_eq, made]
  · simp [rounds_eq]
  · simp [rounds_eq]
  · constructor
    · intro done
      exact absurd done uncreated.not_isDone
    · rintro ⟨complete, _⟩
      rw [launches_eq] at complete
      exact absurd complete.symm typed.plan_ne_nil
  · simp [launches_eq]
  · simp [launches_eq]

theorem keepsToPlan_of_course
    (typed : TypedJob)
    {tree created : FileTree}
    {after : Progress}
    (made : tree.makeDirectories typed.settings.outputPath = (created, none))
    (course : typed.Course typed.wanted { begin typed.job tree with tree := created }
      (typed.rounds tree) after) :
    typed.KeepsToPlan tree (after.andThen finish) := by
  have launches_eq : (after.andThen finish).launches =
      (typed.rounds tree).map fun round => typed.launch round.artifact := by
    rw [launches_andThen_finish, course.launches_eq]
    rfl
  have artifacts_leads := course.artifacts_prefix
  have leads : (after.andThen finish).launches <+: typed.plan := by
    have mapped := artifacts_leads.map typed.launch
    rw [List.map_map] at mapped
    rw [launches_eq]
    exact mapped
  have launched : typed.rounds tree ≠ [] := by
    rw [rounds, made]
    exact typed.roundsFrom_cons_ne_nil .plain _ 0 created
  have complete (all : ∀ round ∈ typed.rounds tree, round.succeeded = true) :
      (after.andThen finish).launches = typed.plan := by
    rw [launches_eq, plan, ← course.artifacts_eq all, List.map_map]
    rfl
  refine ⟨typed.settings.capnp_config _ false, typed.settings.capnp_config _ true,
    typed.settings.msgp_config _ _, typed.path_plain_ne_path_capnp, launches_eq, leads,
    ?_, fun round => course.succeeded_of_mem_dropLast, ?_, ?_, ?_,
    discardsOutput_iff_of_prefix leads⟩
  · simp [launches_eq, made, launched]
  · intro round last_eq
    rcases course.last_cases last_eq with command | bindings | all
    · exact Or.inl command
    · exact Or.inr (Or.inl bindings)
    · have succeeded := all round (List.mem_of_getLast? last_eq)
      exact Or.inr (Or.inr ⟨succeeded, complete all⟩)
  · rw [course.isDone_iff]
    exact ⟨fun all => ⟨complete all, all⟩, And.right⟩
  · rw [launches_eq]
    exact nodup_words artifacts_leads

/-- Whatever the commands do, a run keeps to its plan. -/
theorem keepsToPlan_run
    (typed : TypedJob)
    (tree : FileTree) :
    typed.KeepsToPlan tree (run typed.job tree) := by
  rcases made : tree.makeDirectories typed.settings.outputPath with ⟨created, _ | fault⟩
  · obtain ⟨after, course, final⟩ := run_of_created made
    rw [final]
    exact typed.keepsToPlan_of_course made course
  · exact typed.keepsToPlan_of_uncreated made (run_of_not_created made)

end TypedJob
end Generation
end SchemaCodegen
