import SchemaCodegen.Generation
import SchemaCodegen.Proofs.Config.Typed
import SchemaCodegen.Proofs.TextFile.Replacement

/-!
# Rounds of a run

With settings of the right kinds a run is a sequence of rounds, one for each
artifact that the schema asks for.  A round launches a command and, for the
bindings, renames the declared types in what the command has written.  The first
round that does not succeed is the last one.
-/

namespace SchemaCodegen

open Json (Value)

namespace Artifact

/-- The state that is entered when the artifact is there. -/
def state : Artifact → State
  | .plain => .primaryGenerated
  | .capnp => .disambiguated
  | .msgp => .secondaryGenerated

/-- What has failed when the command for the artifact fails. -/
def launchCause : Artifact → Generation.Cause
  | .plain => .primary
  | .capnp => .primary
  | .msgp => .secondary

end Artifact

namespace Generation

/-- A job whose settings are of the right kinds. -/
structure TypedJob where
  /-- The settings. -/
  settings : TypedConfig
  /-- The schema. -/
  source : Schema.Source
  /-- How the bindings are decoded and encoded. -/
  policy : Utf8.Policy
  /-- How commands are run. -/
  launcher : Launcher

/-- What one launch of a run, and the renaming after it, have done. -/
structure Round where
  /-- How many commands were launched before. -/
  index : Nat
  /-- The artifact that the command is for. -/
  artifact : Artifact
  /-- The tree before the launch. -/
  before : FileTree
  /-- The tree right after the launch. -/
  launched : FileTree
  /-- How the command has ended. -/
  result : CommandResult
  /-- The tree after the round. -/
  after : FileTree
  /-- What has kept the bindings from being renamed, if they had to be. -/
  fault : Option Fault
deriving DecidableEq, Repr

/-- A round succeeds when its command does and nothing keeps the bindings from being renamed. -/
def Round.succeeded (round : Round) : Bool :=
  round.result.ok && round.fault.isNone

theorem Round.succeeded_iff {round : Round} :
    round.succeeded = true ↔ round.result.ok = true ∧ round.fault = none := by
  simp [Round.succeeded]

theorem Round.failed_iff {round : Round} :
    round.succeeded = false ↔
      round.result.ok = false ∨ round.result.ok = true ∧ round.fault ≠ none := by
  unfold Round.succeeded
  cases round.result.ok <;> cases round.fault <;> simp

namespace TypedJob

/-- The job as a run takes it, with some runner. -/
def jobWith (typed : TypedJob) (runner : Runner) : Job :=
  ⟨typed.settings.config, typed.source, typed.policy, runner⟩

/-- The job of which every command is launched. -/
def job (typed : TypedJob) : Job :=
  typed.jobWith (.ofLauncher typed.launcher)

/-- The path of an artifact. -/
def path (typed : TypedJob) (artifact : Artifact) : Path :=
  artifact.path typed.settings.outputPath typed.source

/-- The artifacts that the schema asks for, in the order in which they are generated. -/
def wanted (typed : TypedJob) : List Artifact :=
  [.plain] ++ (if typed.source.directives.capnp then [.capnp] else []) ++
    (if typed.source.directives.msgp then [.msgp] else [])

/-- The command for an artifact. -/
def command (typed : TypedJob) : Artifact → Command
  | .plain => typed.settings.compileCommand typed.source.path.text false
  | .capnp => typed.settings.compileCommand typed.source.path.text true
  | .msgp => typed.settings.encodeCommand (typed.path .plain).text (typed.path .msgp).text

/-- Whether the output of the command for an artifact is forwarded. -/
def forward (typed : TypedJob) : Artifact → Value
  | .msgp => .bool typed.settings.verbose
  | _ => .bool true

/-- The launch of the command for an artifact. -/
def launch (typed : TypedJob) (artifact : Artifact) : Launch :=
  ⟨(typed.command artifact).words, typed.forward artifact⟩

/-- Renames the declared types in the bindings. -/
def rename (typed : TypedJob) (tree : FileTree) : FileTree × Except Fault Text :=
  TextFile.update typed.policy tree (typed.path .capnp)
    (Rename.renameWith typed.settings.mode (.string typed.settings.suffix)
      typed.source.typeNames)

/-- The bindings are renamed once their command has succeeded. -/
def finished (typed : TypedJob) (artifact : Artifact) (result : CommandResult)
    (tree : FileTree) : FileTree × Option Fault :=
  if result.ok ∧ artifact = .capnp then
    match typed.rename tree with
    | (tree, .ok _) => (tree, none)
    | (tree, .error fault) => (tree, some fault)
  else (tree, none)

/-- The round for an artifact, given how many there were before. -/
def round (typed : TypedJob) (index : Nat) (artifact : Artifact) (tree : FileTree) : Round :=
  let launched := typed.launcher.effect index (typed.command artifact) tree
  let finished := typed.finished artifact launched.2 launched.1
  ⟨index, artifact, tree, launched.1, launched.2, finished.1, finished.2⟩

/-- The rounds for some artifacts, up to the first one that does not succeed. -/
def roundsFrom (typed : TypedJob) : List Artifact → Nat → FileTree → List Round
  | [], _, _ => []
  | artifact :: rest, index, tree =>
      let round := typed.round index artifact tree
      if round.succeeded then round :: typed.roundsFrom rest (index + 1) round.after
      else [round]

/-- The rounds of a run; there are none unless the output directory can be created. -/
def rounds (typed : TypedJob) (tree : FileTree) : List Round :=
  match tree.makeDirectories typed.settings.outputPath with
  | (created, none) => typed.roundsFrom typed.wanted 0 created
  | (_, some _) => []

/-- The command for the first artifact is always come to. -/
theorem exists_mem_roundsFrom_cons
    (typed : TypedJob)
    (artifact : Artifact)
    (rest : List Artifact)
    (index : Nat)
    (tree : FileTree) :
    ∃ round ∈ typed.roundsFrom (artifact :: rest) index tree, round.artifact = artifact := by
  simp only [roundsFrom]
  split <;> exact ⟨_, List.mem_cons_self, rfl⟩

/-! ## What a round does -/

theorem artifact_eq_of_fault
    {typed : TypedJob}
    {index : Nat}
    {artifact : Artifact}
    {tree : FileTree}
    (kept : (typed.round index artifact tree).fault ≠ none) :
    artifact = .capnp := by
  simp only [round, finished] at kept
  split at kept
  case isTrue renames => exact renames.2
  case isFalse => simp at kept

/-- A round has not succeeded because its command has failed. -/
def CommandFailed (round : Round) : Prop :=
  round.result.ok = false

/-- A round has not succeeded because the bindings could not be renamed. -/
def RenamingFailed (round : Round) : Prop :=
  round.artifact = .capnp ∧ round.result.ok = true ∧ round.fault ≠ none

theorem commandFailed_or_renamingFailed
    {typed : TypedJob}
    {index : Nat}
    {artifact : Artifact}
    {tree : FileTree}
    (failed : (typed.round index artifact tree).succeeded = false) :
    CommandFailed (typed.round index artifact tree) ∨
      RenamingFailed (typed.round index artifact tree) := by
  rcases Round.failed_iff.mp failed with command | ⟨ended, kept⟩
  · exact Or.inl command
  · exact Or.inr ⟨artifact_eq_of_fault kept, ended, kept⟩

/-- A round that does not succeed leaves the tree as its command has left it. -/
theorem after_eq_of_failed
    {typed : TypedJob}
    {index : Nat}
    {artifact : Artifact}
    {tree : FileTree}
    (failed : (typed.round index artifact tree).succeeded = false) :
    (typed.round index artifact tree).after =
      (typed.launcher.effect index (typed.command artifact) tree).1 := by
  simp only [Round.succeeded, round, finished] at failed ⊢
  generalize typed.launcher.effect index (typed.command artifact) tree = effect at failed ⊢
  split
  case isFalse => rfl
  case isTrue renames =>
    rcases renamed : typed.rename effect.1 with ⟨after, fault | content⟩
    · exact TextFile.update_error renamed
    · simp [renamed, renames] at failed

theorem rename_of_succeeded
    {typed : TypedJob}
    {index : Nat}
    {tree : FileTree}
    (succeeded : (typed.round index .capnp tree).succeeded = true) :
    ∃ content,
      typed.rename (typed.launcher.effect index (typed.command .capnp) tree).1 =
        ((typed.round index .capnp tree).after, .ok content) := by
  simp only [Round.succeeded, round, finished, Bool.and_eq_true] at succeeded ⊢
  generalize typed.launcher.effect index (typed.command .capnp) tree = effect at succeeded ⊢
  obtain ⟨ended, kept⟩ := succeeded
  simp only [ended, and_true, if_true] at kept ⊢
  rcases renamed : typed.rename effect.1 with ⟨after, fault | content⟩
  · simp [renamed] at kept
  · exact ⟨content, rfl⟩

theorem round_of_rename
    {typed : TypedJob}
    {index : Nat}
    {tree after : FileTree}
    {content : Text}
    (ended : (typed.launcher.effect index (typed.command .capnp) tree).2.ok = true)
    (renamed :
      typed.rename (typed.launcher.effect index (typed.command .capnp) tree).1 =
        (after, .ok content)) :
    (typed.round index .capnp tree).after = after ∧
      (typed.round index .capnp tree).succeeded = true := by
  simp [Round.succeeded, round, finished, ended, renamed]

/-- A round that renames nothing does what its command does. -/
theorem round_of_ne
    (typed : TypedJob)
    {artifact : Artifact}
    (different : artifact ≠ .capnp)
    (index : Nat)
    (tree : FileTree) :
    (typed.round index artifact tree).after =
        (typed.launcher.effect index (typed.command artifact) tree).1 ∧
      (typed.round index artifact tree).succeeded =
        (typed.launcher.effect index (typed.command artifact) tree).2.ok := by
  simp [Round.succeeded, round, finished, different]

end TypedJob
end Generation
end SchemaCodegen
