import Mathlib.Data.List.Basic
import SchemaCodegen.Outcome

/-!
# The bookkeeping of outcomes

An outcome is told which states are entered and why a run is aborted, and it is asked to
raise its error, in any order and any number of times.  Its history then has an entry for
each state and each abort, and its error is that of the last abort.
-/

namespace SchemaCodegen
namespace Outcome

/-- What is done with an outcome. -/
inductive Call where
  /-- A state is entered. -/
  | enter (state : State)
  /-- The run is aborted. -/
  | abort (cause : Text) (detail : Option Text)
  /-- The error is raised, if there is one. -/
  | raise
deriving DecidableEq, Repr

namespace Call

/-- What a call adds to the history, if it adds anything. -/
def entry? : Call → Option State
  | .enter state => some state
  | .abort _ _ => some .aborted
  | .raise => none

/-- The call aborts the run. -/
def Aborts (call : Call) : Prop :=
  ∃ cause detail, call = .abort cause detail

end Call

/-- The outcome after a call, and what the call raises. -/
def perform (outcome : Outcome) : Call → Outcome × Except RunError Unit
  | .enter state => (outcome.enter state, .ok ())
  | .abort cause detail => (outcome.abort cause detail, .ok ())
  | .raise => (outcome, outcome.raise)

/-- The outcome after several calls, one behind the other whatever they raise. -/
def performAll (outcome : Outcome) (calls : List Call) : Outcome :=
  calls.foldl (fun outcome call => (outcome.perform call).1) outcome

/-- The entries that some calls make on a fresh outcome, the first of all included. -/
def historyOf (calls : List Call) : List State :=
  .init :: calls.filterMap Call.entry?

/--
An error as the last abort among some calls leaves it: the cause and the detail are those
of the abort, and the state is the entry just before the one that the abort makes.
-/
def IsOfLastAbort (calls : List Call) (error : RunError) : Prop :=
  ∃ earlier later entered,
    calls = earlier ++ .abort error.cause error.detail :: later ∧
      (∀ call ∈ later, ¬call.Aborts) ∧
      historyOf earlier = entered ++ [error.state] ∧
      historyOf calls =
        entered ++ error.state :: .aborted :: later.filterMap Call.entry?

/-! ## What an outcome tells -/

section Views

variable (outcome : Outcome)

theorem raise_eq_error_iff (error : RunError) :
    outcome.raise = .error error ↔ outcome.error = some error := by
  unfold raise
  cases outcome.error <;> simp

theorem ok_iff : outcome.ok = true ↔ outcome.history.getLast? = some .done := by
  rw [ok, state, List.getLastD_eq_getLast?, beq_iff_eq]
  cases outcome.history.getLast? <;> simp

theorem state_of_history_eq
    {entered : List State}
    {last : State}
    (history_eq : outcome.history = entered ++ [last]) :
    outcome.state = last := by
  rw [state, history_eq, List.getLastD_concat]

end Views

/-! ## One call -/

section Perform

variable
  (outcome : Outcome)
  (call : Call)

theorem perform_history :
    (outcome.perform call).1.history = outcome.history ++ call.entry?.toList := by
  cases call with
  | enter | abort => rfl
  | raise => exact (List.append_nil _).symm

theorem perform_directives : (outcome.perform call).1.directives = outcome.directives := by
  cases call <;> rfl

theorem perform_artifacts : (outcome.perform call).1.artifacts = outcome.artifacts := by
  cases call <;> rfl

variable {call}

theorem perform_error_of_not_aborts (continues : ¬call.Aborts) :
    (outcome.perform call).1.error = outcome.error := by
  cases call with
  | enter | raise => rfl
  | abort cause detail => exact absurd ⟨cause, detail, rfl⟩ continues

end Perform

/-! ## Several calls -/

section PerformAll

variable
  (outcome : Outcome)
  (calls : List Call)

theorem performAll_append (later : List Call) :
    outcome.performAll (calls ++ later) = (outcome.performAll calls).performAll later :=
  List.foldl_append

variable {calls} in
/-- What no call changes stays as it is. -/
theorem performAll_keeps
    {view : Outcome → α}
    (keeps : ∀ call ∈ calls, ∀ outcome, view (perform outcome call).1 = view outcome) :
    view (outcome.performAll calls) = view outcome := by
  induction calls generalizing outcome with
  | nil => rfl
  | cons call calls inductionHypothesis =>
      obtain ⟨first, others⟩ := List.forall_mem_cons.mp keeps
      exact (inductionHypothesis _ others).trans (first outcome)

theorem performAll_directives :
    (outcome.performAll calls).directives = outcome.directives :=
  outcome.performAll_keeps fun call _ outcome => outcome.perform_directives call

theorem performAll_artifacts :
    (outcome.performAll calls).artifacts = outcome.artifacts :=
  outcome.performAll_keeps fun call _ outcome => outcome.perform_artifacts call

theorem performAll_history :
    (outcome.performAll calls).history = outcome.history ++ calls.filterMap Call.entry? := by
  induction calls generalizing outcome with
  | nil => exact (List.append_nil _).symm
  | cons call calls inductionHypothesis =>
      have entries : (call :: calls).filterMap Call.entry? =
          call.entry?.toList ++ calls.filterMap Call.entry? := by
        cases call <;> rfl
      calc ((outcome.perform call).1.performAll calls).history
          = (outcome.perform call).1.history ++ calls.filterMap Call.entry? :=
            inductionHypothesis _
        _ = outcome.history ++ (call :: calls).filterMap Call.entry? := by
            rw [perform_history, List.append_assoc, entries]

variable {calls}

/-- Only an abort changes the error. -/
theorem performAll_error_of_not_aborts (continues : ∀ call ∈ calls, ¬call.Aborts) :
    (outcome.performAll calls).error = outcome.error :=
  outcome.performAll_keeps fun call member outcome =>
    outcome.perform_error_of_not_aborts (continues call member)

end PerformAll

/-! ## The last abort -/

theorem exists_last_abort
    {calls : List Call}
    (aborted : ∃ call ∈ calls, call.Aborts) :
    ∃ earlier cause detail later, calls = earlier ++ .abort cause detail :: later ∧
      ∀ call ∈ later, ¬call.Aborts := by
  induction calls with
  | nil => simp at aborted
  | cons first calls inductionHypothesis =>
      -- The first call is the last abort only where no later call aborts.
      by_cases again : ∃ call ∈ calls, call.Aborts
      · obtain ⟨earlier, cause, detail, later, rfl, continues⟩ := inductionHypothesis again
        exact ⟨first :: earlier, cause, detail, later, rfl, continues⟩
      · obtain ⟨call, member, cause, detail, rfl⟩ := aborted
        rcases List.mem_cons.mp member with rfl | behind
        · refine ⟨[], cause, detail, calls, rfl, fun call member aborts => ?_⟩
          exact again ⟨call, member, aborts⟩
        · exact absurd ⟨_, behind, cause, detail, rfl⟩ again

theorem exists_isOfLastAbort
    {calls : List Call}
    (aborted : ∃ call ∈ calls, call.Aborts) :
    ∃ error, IsOfLastAbort calls error := by
  obtain ⟨earlier, cause, detail, later, rfl, continues⟩ := exists_last_abort aborted
  obtain ⟨entered, state, entries⟩ : ∃ entered state, historyOf earlier = entered ++ [state] :=
    ⟨_, _, (List.dropLast_append_getLast (List.cons_ne_nil _ _)).symm⟩
  refine ⟨⟨cause, detail, state⟩, earlier, later, entered, rfl, continues, entries, ?_⟩
  calc historyOf (earlier ++ .abort cause detail :: later)
      = historyOf earlier ++ .aborted :: later.filterMap Call.entry? := by
        simp [historyOf, Call.entry?]
    _ = entered ++ state :: .aborted :: later.filterMap Call.entry? := by
        rw [entries, List.append_assoc, List.singleton_append]

section Start

variable
  (directives : Schema.Directives)
  (calls : List Call)

theorem performAll_start_history :
    ((start directives).performAll calls).history = historyOf calls :=
  performAll_history _ calls

variable {calls}

/-- The abort reads the state before it makes its own entry, and later calls leave the error. -/
theorem performAll_start_error_of_isOfLastAbort
    {error : RunError}
    (last : IsOfLastAbort calls error) :
    ((start directives).performAll calls).error = some error := by
  obtain ⟨earlier, later, entered, rfl, continues, entries, -⟩ := last
  have state_eq : ((start directives).performAll earlier).state = error.state :=
    state_of_history_eq _ ((performAll_start_history directives earlier).trans entries)
  calc ((start directives).performAll
          (earlier ++ .abort error.cause error.detail :: later)).error
      = ((((start directives).performAll earlier).abort error.cause
          error.detail).performAll later).error := by
        rw [performAll_append]
        rfl
    _ = some (((start directives).performAll earlier).errorOf error.cause error.detail) :=
        performAll_error_of_not_aborts _ continues
    _ = some error := by rw [errorOf, state_eq]

theorem performAll_start_error_eq_none_iff :
    ((start directives).performAll calls).error = none ↔ ∀ call ∈ calls, ¬call.Aborts := by
  refine ⟨fun faultless call member aborts => ?_, performAll_error_of_not_aborts _⟩
  obtain ⟨error, last⟩ := exists_isOfLastAbort ⟨call, member, aborts⟩
  simp [performAll_start_error_of_isOfLastAbort directives last] at faultless

theorem performAll_start_error_eq_some_iff (error : RunError) :
    ((start directives).performAll calls).error = some error ↔ IsOfLastAbort calls error := by
  refine ⟨fun failed => ?_, performAll_start_error_of_isOfLastAbort directives⟩
  have aborted : ∃ call ∈ calls, call.Aborts := by
    by_contra never
    have faultless := (performAll_start_error_eq_none_iff directives).mpr
      fun call member aborts => never ⟨call, member, aborts⟩
    simp [faultless] at failed
  obtain ⟨other, last⟩ := exists_isOfLastAbort aborted
  rw [performAll_start_error_of_isOfLastAbort directives last, Option.some.injEq] at failed
  rwa [← failed]

end Start

/--
A fresh outcome accounts for every call that is made on it.  Its history has an entry for
each state that is entered and for each abort, in order; its codecs and files stay as they
are.  It has an error exactly if a call aborts the run, and that error is the one of the
last abort.  Raising fails with the error, if there is one, and changes nothing.  The run
has come to its end exactly if the last entry says so.
-/
theorem performAll_start_accountsFor_calls
    (directives : Schema.Directives)
    (calls : List Call) :
    let outcome := (start directives).performAll calls
    outcome.history = .init :: calls.filterMap Call.entry? ∧
      outcome.directives = directives ∧
      outcome.artifacts = [] ∧
      (outcome.error = none ↔ ∀ call ∈ calls, ¬call.Aborts) ∧
      (∀ error, outcome.error = some error ↔ IsOfLastAbort calls error) ∧
      (outcome.perform .raise).1 = outcome ∧
      (∀ error, (outcome.perform .raise).2 = .error error ↔ outcome.error = some error) ∧
      (outcome.ok = true ↔ outcome.history.getLast? = some .done) := by
  intro outcome
  exact ⟨performAll_start_history directives calls, performAll_directives _ calls,
    performAll_artifacts _ calls, performAll_start_error_eq_none_iff directives,
    performAll_start_error_eq_some_iff directives, rfl, raise_eq_error_iff outcome,
    ok_iff outcome⟩

/-- An abort behind the end names the end, and no state that is entered later clears it. -/
example :
    let calls : List Call :=
      [.abort "a" none, .enter .done, .raise, .abort "b" (some "c"), .enter .done]
    let outcome := (start ⟨true, false⟩).performAll calls
    outcome.history = [.init, .aborted, .done, .aborted, .done] ∧
      outcome.error = some ⟨"b", some "c", .done⟩ ∧ outcome.ok = true := by
  decide

end Outcome
end SchemaCodegen
