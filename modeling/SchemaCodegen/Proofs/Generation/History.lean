import SchemaCodegen.Proofs.FileTree.Directories
import SchemaCodegen.Proofs.Generation.Course

/-!
# Histories of runs

A run enters the states of the artifacts that the schema asks for, in order, and
either comes to its end or is aborted before one of them.  The error names the
last state before, and its cause belongs to the state that was not reached.
-/

namespace SchemaCodegen

namespace Outcome

@[simp] theorem state_enter (outcome : Outcome) (state : State) :
    (outcome.enter state).state = state := by
  simp [Outcome.state, enter, List.getLastD_eq_getLast?]

@[simp] theorem state_abort (outcome : Outcome) (cause : Text) (detail : Option Text) :
    (outcome.abort cause detail).state = .aborted := by
  simp [Outcome.state, abort, List.getLastD_eq_getLast?]

end Outcome

namespace Generation

/-- The states of a run that comes to its end. -/
def fullHistory (directives : Schema.Directives) : List State :=
  [.init, .primaryGenerated] ++ (if directives.capnp then [.disambiguated] else []) ++
    (if directives.msgp then [.secondaryGenerated] else []) ++ [.done]

/-- What may have failed when a run is aborted before it enters a state. -/
def possibleCauses : State → List Cause
  | .primaryGenerated => [.outputDir, .primary]
  | .disambiguated => [.primary, .artifact]
  | .secondaryGenerated => [.secondary]
  | _ => []

/-- The artifact that is there once a state is entered. -/
def artifactOf? : State → Option Artifact
  | .primaryGenerated => some .plain
  | .disambiguated => some .capnp
  | .secondaryGenerated => some .msgp
  | _ => none

/-- The outcome of a run that has come to its end. -/
structure Completes (directives : Schema.Directives) (outcome : Outcome) : Prop where
  /-- Every state has been entered. -/
  history : outcome.history = fullHistory directives
  /-- The run has succeeded. -/
  ok : outcome.ok = true
  /-- Nothing has failed. -/
  error : outcome.error = none

/-- The outcome of a run that has stopped before it could enter a state. -/
structure StopsBefore
    (directives : Schema.Directives)
    (entered : List State)
    (next : State)
    (outcome : Outcome) : Prop where
  /-- At least one state has been entered. -/
  nonempty : entered ≠ []
  /-- The state is the next one that the run had to enter. -/
  full : entered ++ [next] <+: fullHistory directives
  /-- The run does not stop before its very end. -/
  notDone : next ≠ .done
  /-- The history ends with the abort. -/
  history : outcome.history = entered ++ [.aborted]
  /-- The run has not succeeded. -/
  ok : outcome.ok = false
  /-- The error names the last state and a cause that belongs to the next one. -/
  error : ∃ cause ∈ possibleCauses next, ∃ detail state,
    outcome.error = some ⟨cause.message, detail, state⟩ ∧ entered.getLast? = some state

namespace TypedJob

theorem fullHistory_eq (typed : TypedJob) :
    fullHistory typed.source.directives =
      .init :: typed.wanted.map Artifact.state ++ [.done] := by
  unfold fullHistory wanted
  cases typed.source.directives.capnp <;> cases typed.source.directives.msgp <;> rfl

/-- A history tells the artifacts of the completed stages. -/
theorem filterMap_history
    {artifacts : List Artifact}
    {last : State}
    (none : artifactOf? last = none) :
    (State.init :: artifacts.map Artifact.state ++ [last]).filterMap artifactOf? =
      artifacts := by
  have states : (artifacts.map Artifact.state).filterMap artifactOf? = artifacts := by
    induction artifacts with
    | nil => rfl
    | cons artifact rest inductionHypothesis =>
        have named : artifactOf? artifact.state = some artifact := by
          cases artifact <;> rfl
        rw [List.map_cons, List.filterMap_cons_some named, inductionHypothesis]
  have first : artifactOf? .init = Option.none := rfl
  rw [List.filterMap_append, List.filterMap_cons_none first, states,
    List.filterMap_cons_none none, List.filterMap_nil, List.append_nil]

/-- A round that does not succeed aborts the run for a cause of its own, or is a fault. -/
theorem close_cases
    (typed : TypedJob)
    {round : Round}
    (failed : CommandFailed round ∨ RenamingFailed round)
    (outcome : Outcome) :
    (∃ cause ∈ possibleCauses round.artifact.state, ∃ detail,
      typed.close round outcome = (outcome.abort cause.message detail, .ended)) ∨
      ∃ fault, (typed.close round outcome).2 = .faulted fault := by
  unfold close
  rcases failed with command | ⟨bindings, ended, kept⟩
  · rw [CommandFailed] at command
    refine Or.inl ⟨round.artifact.launchCause, ?_, round.result.error, by simp [command]⟩
    cases round.artifact <;> simp [Artifact.state, Artifact.launchCause, possibleCauses]
  · obtain ⟨fault, fault_eq⟩ := Option.ne_none_iff_exists'.mp kept
    simp only [ended, fault_eq, bindings, if_true]
    by_cases reported : fault.isFileFault = true
    · refine Or.inl ⟨.artifact, by simp [Artifact.state, possibleCauses], ?_⟩
      simp only [reported, if_true]
      exact ⟨_, rfl⟩
    · simp only [reported, Bool.false_eq_true, if_false]
      exact Or.inr ⟨fault, rfl⟩

section Outcomes

variable
  (typed : TypedJob)
  {done later : List Artifact}
  {outcome : Outcome}

/-- Coming to the end after all artifacts completes a run. -/
theorem completes_of_enter_done
    (outcome_eq : outcome =
      (typed.completeAll typed.wanted (Outcome.start typed.source.directives)).enter .done) :
    Completes typed.source.directives outcome ∧
      outcome.artifacts = (outcome.history.filterMap artifactOf?).map typed.path := by
  subst outcome_eq
  have history_eq :
      ((typed.completeAll typed.wanted
        (Outcome.start typed.source.directives)).enter .done).history =
        .init :: typed.wanted.map Artifact.state ++ [.done] := rfl
  refine ⟨⟨?_, ?_, rfl⟩, ?_⟩
  · rw [history_eq, fullHistory_eq]
  · rw [Outcome.ok, Outcome.state_enter]
    rfl
  · rw [history_eq, filterMap_history rfl]
    simp [completeAll, Outcome.start, Outcome.enter]

/-- An abort after some artifacts stops a run before the state of the next one. -/
theorem stopsBefore_of_abort
    {next : Artifact}
    {cause : Cause}
    {detail : Option Text}
    (split : typed.wanted = done ++ next :: later)
    (possible : cause ∈ possibleCauses next.state)
    (outcome_eq : outcome =
      (typed.completeAll done (Outcome.start typed.source.directives)).abort
        cause.message detail) :
    StopsBefore typed.source.directives (.init :: done.map Artifact.state) next.state
        outcome ∧
      outcome.artifacts = (outcome.history.filterMap artifactOf?).map typed.path := by
  subst outcome_eq
  have history_eq :
      ((typed.completeAll done (Outcome.start typed.source.directives)).abort
        cause.message detail).history =
        .init :: done.map Artifact.state ++ [.aborted] := rfl
  have last_eq :
      (State.init :: done.map Artifact.state).getLast? =
        some (typed.completeAll done (Outcome.start typed.source.directives)).state := by
    simp [Outcome.state, completeAll, Outcome.start, List.getLast?_cons,
      List.getLastD_eq_getLast?]
  refine ⟨⟨by simp, ?_, ?_, history_eq, ?_, cause, possible, detail, _, rfl, last_eq⟩, ?_⟩
  · rw [fullHistory_eq, split]
    simp
  · cases next <;> simp [Artifact.state]
  · rw [Outcome.ok, Outcome.state_abort]
    rfl
  · rw [history_eq, filterMap_history rfl]
    simp [completeAll, Outcome.start, Outcome.abort]

end Outcomes

/--
A run that returns has entered every state that the schema asks for, or has been
aborted before one of them; the artifacts are those of the entered states.
-/
theorem completes_or_stopsBefore
    (typed : TypedJob)
    (tree : FileTree)
    (outcome : Outcome)
    (returned : (run typed.job tree).result = .ok outcome) :
    (Completes typed.source.directives outcome ∨
      ∃ entered next, StopsBefore typed.source.directives entered next outcome) ∧
      outcome.artifacts = (outcome.history.filterMap artifactOf?).map typed.path := by
  rcases made : tree.makeDirectories typed.settings.outputPath with ⟨created, _ | fault⟩
  · obtain ⟨after, course, final⟩ := run_of_created made
    rw [final] at returned
    rcases course.runsOut_or_breaksOff with out | ⟨done, later, failing, off⟩
    · rw [andThen_of_running out.running] at returned
      have outcome_eq := (Except.ok.inj returned).symm.trans
        (congrArg (fun outcome => outcome.enter .done) out.outcome)
      obtain ⟨completes, artifacts_eq⟩ := typed.completes_of_enter_done outcome_eq
      exact ⟨Or.inl completes, artifacts_eq⟩
    · rw [andThen_of_not_running off.not_running] at returned
      rcases typed.close_cases off.reason
        (typed.completeAll done { begin typed.job tree with tree := created }.outcome) with
        ⟨cause, possible, detail, aborted⟩ | ⟨fault, faulted⟩
      · obtain ⟨abort_eq, ended⟩ := Prod.mk.inj (off.closed.trans aborted)
        rw [result_of_ended ended] at returned
        have outcome_eq := (Except.ok.inj returned).symm.trans abort_eq
        obtain ⟨stops, artifacts_eq⟩ :=
          typed.stopsBefore_of_abort off.split possible outcome_eq
        exact ⟨Or.inr ⟨_, _, stops⟩, artifacts_eq⟩
      · have status_eq : after.status = .faulted fault :=
          (congrArg Prod.snd off.closed).trans faulted
        simp [Progress.result, status_eq] at returned
  · have uncreated := run_of_not_created made
    rcases uncreated.closed with ⟨detail, ended, abort_eq⟩ | ⟨fault, faulted⟩
    · rw [result_of_ended ended] at returned
      obtain ⟨later, split⟩ : ∃ later, typed.wanted = [] ++ .plain :: later := ⟨_, rfl⟩
      have possible : Cause.outputDir ∈ possibleCauses Artifact.plain.state := by
        simp [Artifact.state, possibleCauses]
      have outcome_eq := (Except.ok.inj returned).symm.trans abort_eq
      obtain ⟨stops, artifacts_eq⟩ := typed.stopsBefore_of_abort split possible outcome_eq
      exact ⟨Or.inr ⟨_, _, stops⟩, artifacts_eq⟩
    · simp [Progress.result, faulted] at returned

/-- A run for bindings that are never written is aborted before they are renamed. -/
theorem completes_or_stopsBefore_withoutBindings :
    let source : Schema.Source :=
      ⟨.ofText "user.capnp", Text.ofString "$Codec.capnp; struct User"⟩
    let typed : TypedJob := ⟨{}, source, .strict, .ofExecutions []⟩
    ∃ outcome, (run typed.job ⟨[], []⟩).result = .ok outcome ∧
      outcome.history = [.init, .primaryGenerated, .aborted] ∧
      (Completes source.directives outcome ∨
        ∃ entered next, StopsBefore source.directives entered next outcome) ∧
      outcome.artifacts = (outcome.history.filterMap artifactOf?).map typed.path := by
  intro source typed
  have returned :
      (run typed.job ⟨[], []⟩).result = .ok (run typed.job ⟨[], []⟩).outcome :=
    result_of_ended (by decide +kernel)
  refine ⟨_, returned, by decide +kernel, ?_⟩
  exact completes_or_stopsBefore typed ⟨[], []⟩ _ returned

end TypedJob
end Generation
end SchemaCodegen
