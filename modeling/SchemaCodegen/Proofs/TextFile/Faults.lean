import SchemaCodegen.Proofs.FileTree.Directories
import SchemaCodegen.Proofs.TextFile.Replacement

/-!
# Faults of requests

A request for a path that the operating system takes is only ever refused; creating
directories may moreover find too many of them missing.  So an update of a path without
the character zero, by a transform that never fails, has no faults but those of files.
-/

namespace SchemaCodegen

namespace FileTree

variable
  {tree : FileTree}
  {path : Path}
  {fault : AccessFault}

/-- A text that has no bytes is a fault of a file, one with the character zero is not. -/
theorem isFileFault_unusable
    {unusable : HandoverFault}
    (noNul : unusable ≠ .nul) :
    (Fault.access (.unusable unusable)).isFileFault = true := by
  cases unusable with
  | unencodable fault => rfl
  | nul => contradiction

theorem isFileFault_of_read
    (noNul : path.fault? ≠ some .nul)
    (failed : tree.read path = .error fault) :
    (Fault.access fault).isFileFault = true := by
  unfold read at failed
  split at failed
  case h_1 unusable found =>
    cases failed
    rw [found] at noNul
    exact isFileFault_unusable fun nul => noNul (congrArg some nul)
  case h_2 =>
    split at failed
    case h_1 =>
      cases failed
      rfl
    case h_2 =>
      cases failed
      rfl
    case h_3 => contradiction

theorem isFileFault_of_createTemporary
    (usable : path.fault? = none)
    (failed : tree.createTemporary path = .error fault) :
    (Fault.access fault).isFileFault = true := by
  unfold createTemporary at failed
  simp only [fault?_temporaryPath usable] at failed
  split at failed
  case h_1 =>
    cases failed
    rfl
  case h_2 =>
    cases failed
    rfl
  case h_3 =>
    split at failed
    · cases failed
      rfl
    · contradiction

theorem isFileFault_of_replace
    {temporary : Temporary}
    (usable : path.fault? = none)
    (failed : tree.replace temporary path = .error fault) :
    (Fault.access fault).isFileFault = true := by
  unfold replace at failed
  simp only [usable] at failed
  split at failed
  case h_1 => contradiction
  case h_2 =>
    cases failed
    rfl
  case h_3 =>
    split at failed
    · cases failed
      rfl
    · cases failed
      rfl
    · split at failed
      · cases failed
        rfl
      · contradiction

theorem settle_ne_unusable
    (tree : FileTree)
    (path : Path)
    (refusal : Refusal)
    (unusable : HandoverFault) :
    (tree.settle path refusal).2 ≠ some (.unusable unusable) := by
  unfold settle
  split <;> simp [refuse]

theorem makeReversed_ne_unusable
    (root : Root)
    (room : Nat)
    (reversed : List Text)
    (tree : FileTree)
    (unusable : HandoverFault) :
    (makeReversed root room reversed tree).2 ≠ some (.unusable unusable) := by
  fun_induction makeReversed root room reversed tree with
  | case1 => simp
  | case2 => exact settle_ne_unusable _ _ _ _
  | case3 => simp
  | case4 => simp
  | case5 _ _ _ _ _ _ _ _ above inductionHypothesis => simpa [above] using inductionHypothesis
  | case6 => simp
  | case7 => simp [refuse]
  | case8 => exact settle_ne_unusable _ _ _ _
  | case9 => exact settle_ne_unusable _ _ _ _

/-- Only a path that is not taken keeps directories from being tried at all. -/
theorem fault?_iff_makeDirectories
    (tree : FileTree)
    (path : Path)
    (unusable : HandoverFault) :
    (tree.makeDirectories path).2 = some (.unusable unusable) ↔ path.fault? = some unusable := by
  unfold makeDirectories
  cases path.fault? with
  | some fault => simp
  | none => simpa using makeReversed_ne_unusable _ _ _ tree unusable

end FileTree

namespace TextFile

variable
  {policy : Utf8.Policy}
  {tree after : FileTree}
  {path : Path}

theorem isFileFault_of_read
    {fault : Fault}
    (noNul : path.fault? ≠ some .nul)
    (failed : read policy tree path = .error fault) :
    fault.isFileFault = true := by
  unfold read at failed
  split at failed
  case h_1 refused =>
    cases failed
    exact FileTree.isFileFault_of_read noNul refused
  case h_2 =>
    split at failed
    · cases failed
      rfl
    · contradiction

theorem isFileFault_of_write
    {fault : Fault}
    {content : Text}
    (usable : path.fault? = none)
    (failed : write policy tree path content = (after, .error fault)) :
    fault.isFileFault = true := by
  unfold write at failed
  split at failed
  case h_1 refused =>
    cases failed
    exact FileTree.isFileFault_of_createTemporary usable refused
  case h_2 =>
    split at failed
    · cases failed
      rfl
    · dsimp only at failed
      split at failed
      case h_1 refused =>
        cases failed
        exact FileTree.isFileFault_of_replace usable refused
      case h_2 => simp at failed

/-- The faults of an update are those of its transform and of files. -/
theorem isFileFault_of_update
    {fault : Fault}
    {transform : Text → Except Fault Text}
    (noNul : path.fault? ≠ some .nul)
    (total : ∀ text, ∃ content, transform text = .ok content)
    (failed : update policy tree path transform = (after, .error fault)) :
    fault.isFileFault = true := by
  unfold update at failed
  split at failed
  case h_1 refused =>
    cases failed
    exact isFileFault_of_read noNul refused
  case h_2 text opened =>
    obtain ⟨_, _, found, _⟩ := read_eq_ok opened
    obtain ⟨usable, _⟩ := FileTree.read_eq_ok_iff.mp found
    obtain ⟨content, transformed⟩ := total text
    simp only [transformed] at failed
    split at failed
    case h_1 refused =>
      cases failed
      exact isFileFault_of_write usable refused
    case h_2 => simp at failed

end TextFile
end SchemaCodegen
