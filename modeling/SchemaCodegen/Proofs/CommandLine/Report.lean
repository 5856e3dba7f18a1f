import SchemaCodegen.Proofs.CommandLine.Conclusion
import SchemaCodegen.Proofs.CommandLine.Echo
import SchemaCodegen.Proofs.Generation.Settling

/-!
# What the command reports

The exit status tells whether there is what was asked for: help, or everything that the
schema asks for.  The error of an aborted run is echoed last.  Before the run of the
generators nothing is launched and nothing changes in the file tree.
-/

namespace SchemaCodegen
namespace CommandLine

/-- What the user may rely on when the command has ended. -/
structure Reports (before : FileTree) (conclusion : Conclusion) : Prop where
  /-- The status is zero for the help text and for a run that has come to its end. -/
  succeeds_iff :
    conclusion.exitStatus = 0 ↔
      conclusion = .help ∨
        ∃ session outcome, conclusion = .ran session ∧
          session.progress.result = .ok outcome ∧ outcome.state = .done
  /--
  The error of an aborted run is echoed last.  There is one way to echo its message, which
  leaves a message without control sequences as it is; a message of characters is then
  written as such.
  -/
  aborts : ∀ session outcome, conclusion = .ran session →
    session.progress.result = .ok outcome → outcome.state = .aborted →
    conclusion.exitStatus = 1 ∧
      ∃ error told echoed, outcome.error = some error ∧
        conclusion.errors = told ++ "Error: " ++ echoed.shown ++ "\n" ∧
        (∀ text, Echo.Echoes error.message text ↔ text = echoed) ∧
        ((∀ sequence, Echo.IsControlSequence sequence → ¬sequence <:+: error.message) →
          echoed = error.message ∧
            ∀ string, error.message = Text.ofString string →
              conclusion.errors = told ++ "Error: " ++ string ++ "\n")
  /-- Without a run nothing is launched, and the file tree stays as it is. -/
  leaves : (∀ session, conclusion ≠ .ran session) →
    conclusion.launches = [] ∧ conclusion.tree before = before
  /-- Without a run and without help the status is two for a misuse and one for all else. -/
  fails : (∀ session, conclusion ≠ .ran session) → conclusion ≠ .help →
    (∃ fault, conclusion = .misused fault) ∧ conclusion.exitStatus = 2 ∨
      (¬∃ fault, conclusion = .misused fault) ∧ conclusion.exitStatus = 1

namespace Session

variable {session : Session} {outcome : Outcome}

theorem exitStatus_eq_zero_iff
    (settled : ∀ outcome, session.progress.result = .ok outcome → outcome.IsSettled) :
    session.exitStatus = 0 ↔
      ∃ outcome, session.progress.result = .ok outcome ∧ outcome.state = .done := by
  unfold exitStatus
  cases returned : session.progress.result with
  | error fault => simp
  | ok outcome =>
      rcases settled outcome returned with ⟨done, faultless⟩ | ⟨aborted, failed⟩
      · simp [done, faultless]
      · simp [aborted, Option.isSome_iff_ne_none.mpr failed]

theorem exitStatus_of_error
    {error : RunError}
    (returned : session.progress.result = .ok outcome)
    (failed : outcome.error = some error) :
    session.exitStatus = 1 := by
  simp [exitStatus, returned, failed]

/-- The error of a run is the last thing that is written. -/
theorem exists_errors_eq
    {error : RunError}
    (returned : session.progress.result = .ok outcome)
    (failed : outcome.error = some error) :
    ∃ told, session.errors = told ++ Echo.error error.message := by
  refine ⟨(session.channel.writeAll (session.preamble ++ session.progress.log)).shown, ?_⟩
  simp [errors, closing, returned, Outcome.raise, failed]

end Session

theorem exists_echoed_of_aborted
    {session : Session}
    {outcome : Outcome}
    (returned : session.progress.result = .ok outcome)
    (failed : outcome.error ≠ none) :
    ∃ error told echoed, outcome.error = some error ∧
      session.errors = told ++ "Error: " ++ echoed.shown ++ "\n" ∧
      (∀ text, Echo.Echoes error.message text ↔ text = echoed) ∧
      ((∀ sequence, Echo.IsControlSequence sequence → ¬sequence <:+: error.message) →
        echoed = error.message ∧
          ∀ string, error.message = Text.ofString string →
            session.errors = told ++ "Error: " ++ string ++ "\n") := by
  obtain ⟨error, error_eq⟩ := Option.ne_none_iff_exists'.mp failed
  obtain ⟨told, told_eq⟩ := session.exists_errors_eq returned error_eq
  have echoes := Echo.echoes_plainFrom error.message
  have errors_eq : session.errors =
      told ++ "Error: " ++ (Echo.plainFrom 0 error.message).shown ++ "\n" := by
    rw [told_eq, Echo.error_eq, String.append_assoc, String.append_assoc,
      String.append_assoc]
  refine ⟨error, told, _, error_eq, errors_eq, fun text => Echo.echoes_iff, fun free => ?_⟩
  have same := echoes.eq_of_free free
  refine ⟨same, fun string message_eq => ?_⟩
  rw [errors_eq, same, message_eq, Text.shown_ofString]

/-- However the command ends, it reports truthfully and leaves no traces of an early end. -/
theorem reports_conclude (surroundings : Surroundings) (tree : FileTree) :
    Reports tree (conclude surroundings tree) := by
  cases concluded : conclude surroundings tree with
  | help | usage | misused _ | failed _ =>
      constructor <;> simp [Conclusion.exitStatus, Conclusion.launches, Conclusion.tree]
  | ran session =>
      obtain ⟨job, progress_eq⟩ := exists_run_of_conclude concluded
      have settled : ∀ outcome, session.progress.result = .ok outcome →
          outcome.IsSettled := by
        rw [progress_eq]
        exact fun outcome returned => Generation.isSettled_of_run job returned
      constructor
      case succeeds_iff =>
        simp [Conclusion.exitStatus, session.exitStatus_eq_zero_iff settled]
      case aborts =>
        rintro _ outcome ⟨⟩ returned aborted
        have failed : outcome.error ≠ none := by
          rcases settled outcome returned with ⟨done, _⟩ | ⟨_, failed⟩
          · simp [done] at aborted
          · exact failed
        have echoed := exists_echoed_of_aborted returned failed
        obtain ⟨error, error_eq⟩ := Option.ne_none_iff_exists'.mp failed
        exact ⟨session.exitStatus_of_error returned error_eq, echoed⟩
      case leaves => exact fun early => absurd rfl (early session)
      case fails => exact fun early => absurd rfl (early session)

/-- An error that holds a control sequence is not echoed as it is. -/
theorem aborted_run_drops_controlSequence :
    let surroundings : Surroundings :=
      ⟨["-o", "o\x1b[31m", "-source", "m.capnp"], [], .subprocess .everything (.ofExecutions [])⟩
    let tree : FileTree :=
      ⟨[], [([Utf8.encode "m.capnp"], .file (Utf8.encode "$Codec.capnp;"))]⟩
    ∃ session outcome error message, conclude surroundings tree = .ran session ∧
      session.progress.result = .ok outcome ∧ outcome.state = .aborted ∧
      outcome.error = some error ∧ error.message = Text.ofString message ∧
      ¬∃ told, (conclude surroundings tree).errors = told ++ "Error: " ++ message ++ "\n" := by
  intro surroundings tree
  let config : Config := { outputDir := .string "o\x1b[31m" }
  let source : Schema.Source := ⟨.ofText "m.capnp", Text.ofString "$Codec.capnp;"⟩
  let session := sessionOf surroundings tree config (.string "capnp") true source
  let detail :=
    "o\x1b[31m/m.capnp.go: [Errno 2] No such file or directory: 'o\\x1b[31m/m.capnp.go'"
  let error : RunError :=
    ⟨"failed to read/write primary-optional artifact", some detail, .primaryGenerated⟩
  let message := "failed to read/write primary-optional artifact: " ++ detail
  let items : List Item := [.setting .outputDir "o\x1b[31m", .setting .source "m.capnp"]
  have accepts : Accepts tree surroundings.arguments items :=
    ⟨by rfl, by decide +kernel, by decide +kernel⟩
  have concluded : conclude surroundings tree = .ran session := by
    refine conclude_eq_ran_iff_serve.mpr ⟨items, "m.capnp", accepts, by rfl, ?_⟩
    exact serve_eq_ok_iff.mpr ⟨config, source, {}, true, by rfl, by rfl, rfl, by rfl, rfl⟩
  have ended : session.progress.status = .ended := by decide +kernel
  have aborted : session.progress.outcome.state = .aborted := by decide +kernel
  have failed : session.progress.outcome.error = some error := by decide +kernel
  have returned := Generation.result_of_ended ended
  have message_eq : error.message = Text.ofString message := by decide +kernel
  refine ⟨session, _, error, message, concluded, returned, aborted, failed, message_eq, ?_⟩
  rintro ⟨told, told_eq⟩
  obtain ⟨before, before_eq⟩ := session.exists_errors_eq returned failed
  rw [concluded] at told_eq
  have echoed_eq : Echo.error error.message =
      "Error: failed to read/write primary-optional artifact: " ++
      "o/m.capnp.go: [Errno 2] No such file or directory: 'o\\x1b[31m/m.capnp.go'\n" := by
    decide +kernel
  -- What is written cannot end with the message as well as with what is left of it.
  have ends : ("Error: " ++ message ++ "\n").toList <:+ session.errors.toList :=
    ⟨told.toList, by
      rw [show session.errors = _ from told_eq]
      simp only [String.toList_append, List.append_assoc]⟩
  have endsEchoed : (Echo.error error.message).toList <:+ session.errors.toList :=
    ⟨before.toList, by rw [before_eq, String.toList_append]⟩
  have apart := List.suffix_or_suffix_of_suffix ends endsEchoed
  rw [echoed_eq] at apart
  revert apart
  decide +kernel

end CommandLine
end SchemaCodegen
