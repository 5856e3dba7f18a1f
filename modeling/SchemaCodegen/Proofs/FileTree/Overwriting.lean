import SchemaCodegen.Proofs.FileTree.Directories

/-!
# Writing files again

Whoever adds directories to a tree and writes files leaves a tree behind that
does not change when the same files are written once more in the same order: the
last write to each location is the one that counts, both times.
-/

namespace SchemaCodegen
namespace FileTree

/-- A location and the bytes that are written there. -/
abbrev Write := Location × List UInt8

/-- The tree after some files are written, one after the other. -/
def overwrite (writes : List Write) (tree : FileTree) : FileTree :=
  writes.foldl (fun tree write => tree.setContent write.1 write.2) tree

@[simp] theorem overwrite_nil (tree : FileTree) : overwrite [] tree = tree := rfl

@[simp] theorem overwrite_cons
    (write : Write)
    (writes : List Write)
    (tree : FileTree) :
    overwrite (write :: writes) tree =
      overwrite writes (tree.setContent write.1 write.2) := rfl

@[simp] theorem overwrite_append
    (early late : List Write)
    (tree : FileTree) :
    overwrite (early ++ late) tree = overwrite late (overwrite early tree) := by
  rw [overwrite, List.foldl_append]
  rfl

@[simp] theorem workingDirectory_overwrite
    (writes : List Write)
    (tree : FileTree) :
    (overwrite writes tree).workingDirectory = tree.workingDirectory := by
  induction writes generalizing tree with
  | nil => rfl
  | cons write writes inductionHypothesis =>
      rw [overwrite_cons, inductionHypothesis, setContent, workingDirectory_insert]

theorem lookup_overwrite_of_not_mem
    {writes : List Write}
    {location : Location}
    (unwritten : location ∉ writes.map Prod.fst)
    (tree : FileTree) :
    (overwrite writes tree).entries.lookup location = tree.entries.lookup location := by
  induction writes generalizing tree with
  | nil => rfl
  | cons write writes inductionHypothesis =>
      rw [List.map_cons, List.mem_cons, not_or] at unwritten
      rw [overwrite_cons, inductionHypothesis unwritten.2, setContent,
        lookup_insert_of_ne tree unwritten.1]

/-- What a written location holds does not depend on what it held before. -/
theorem lookup_overwrite
    {writes : List Write}
    {location : Location}
    (written : location ∈ writes.map Prod.fst)
    (first second : FileTree) :
    (overwrite writes first).entries.lookup location =
      (overwrite writes second).entries.lookup location := by
  induction writes generalizing first second with
  | nil => simp at written
  | cons write writes inductionHypothesis =>
      rw [overwrite_cons, overwrite_cons]
      by_cases later : location ∈ writes.map Prod.fst
      · exact inductionHypothesis later _ _
      · have here : location = write.1 := by
          rw [List.map_cons, List.mem_cons] at written
          exact written.resolve_right later
        subst here
        rw [lookup_overwrite_of_not_mem later, lookup_overwrite_of_not_mem later,
          setContent, setContent, lookup_insert_self, lookup_insert_self]

theorem entry?_overwrite
    {writes : List Write}
    {location : Location}
    {first second : FileTree}
    (written : location ∈ writes.map Prod.fst)
    (workingDirectory : first.workingDirectory = second.workingDirectory) :
    FileTree.entry? (overwrite writes first) location =
      FileTree.entry? (overwrite writes second) location := by
  simp only [FileTree.entry?, workingDirectory_overwrite, workingDirectory,
    lookup_overwrite written first second]

/-! ## Where every written location has an entry -/

/-- Every written location has an entry of its own. -/
def StoresAll (tree : FileTree) (writes : List Write) : Prop :=
  ∀ write ∈ writes, tree.Stores write.1

theorem StoresAll.insert
    {tree : FileTree}
    {writes : List Write}
    (stores : tree.StoresAll writes)
    (location : Location)
    (entry : Entry) :
    (tree.insert location entry).StoresAll writes :=
  fun write member => (stores write member).insert location entry

theorem overwrite_insert
    {tree : FileTree}
    {writes : List Write}
    {location : Location}
    (stores : tree.StoresAll writes)
    (unwritten : location ∉ writes.map Prod.fst)
    (entry : Entry) :
    overwrite writes (tree.insert location entry) =
      (overwrite writes tree).insert location entry := by
  induction writes generalizing tree with
  | nil => rfl
  | cons write writes inductionHypothesis =>
      rw [List.map_cons, List.mem_cons, not_or] at unwritten
      have storesFirst := stores write List.mem_cons_self
      have storesRest : tree.StoresAll writes :=
        fun other member => stores other (List.mem_cons_of_mem write member)
      rw [overwrite_cons, overwrite_cons, setContent,
        insert_comm unwritten.1 storesFirst, ← setContent]
      exact inductionHypothesis (storesRest.insert write.1 _) unwritten.2

/-- What a location held before some files are written does not count if it is written last. -/
theorem insert_overwrite_insert
    {tree : FileTree}
    {writes : List Write}
    (stores : tree.StoresAll writes)
    (location : Location)
    (first second : Entry) :
    (overwrite writes (tree.insert location first)).insert location second =
      (overwrite writes tree).insert location second := by
  induction writes generalizing tree with
  | nil => exact insert_insert tree location first second
  | cons write writes inductionHypothesis =>
      have storesFirst := stores write List.mem_cons_self
      have storesRest : tree.StoresAll writes :=
        fun other member => stores other (List.mem_cons_of_mem write member)
      rw [overwrite_cons, overwrite_cons, setContent, setContent]
      by_cases here : location = write.1
      · rw [here, insert_insert]
      · rw [insert_comm here storesFirst]
        exact inductionHypothesis (storesRest.insert write.1 _)

/-! ## Trees that are left behind -/

/--
A tree is left behind when directories are created at free locations and files are
written anywhere but in place of directories.
-/
inductive Leaves (before : FileTree) : List Write → FileTree → Prop
  /-- Nothing is done. -/
  | nothing : Leaves before [] before
  /-- One more directory is created. -/
  | directory
      {writes : List Write}
      {tree : FileTree}
      {location : Location} :
      Leaves before writes tree →
      tree.entry? location = none →
      Leaves before writes (tree.insert location .directory)
  /-- One more file is written. -/
  | file
      {writes : List Write}
      {tree : FileTree}
      {location : Location}
      (content : List UInt8) :
      Leaves before writes tree →
      tree.entry? location ≠ some .directory →
      Leaves before (writes ++ [(location, content)]) (tree.setContent location content)

namespace Leaves

variable {before after : FileTree} {writes : List Write}

theorem of_paved
    {root : Root}
    {parts : List Text}
    (paved : Paved root parts before after) :
    Leaves before [] after := by
  induction paved with
  | nothing => exact .nothing
  | created _ _ _ free inductionHypothesis => exact .directory inductionHypothesis free

theorem append
    {last : FileTree}
    {later : List Write}
    (early : Leaves before writes after)
    (late : Leaves after later last) :
    Leaves before (writes ++ later) last := by
  induction late with
  | nothing => rwa [List.append_nil]
  | directory _ free inductionHypothesis => exact .directory inductionHypothesis free
  | file content _ noDirectory inductionHypothesis =>
      rw [← List.append_assoc]
      exact .file content inductionHypothesis noDirectory

theorem grows (leaves : Leaves before writes after) : Grows before after := by
  induction leaves with
  | nothing => exact Grows.refl before
  | directory _ free inductionHypothesis =>
      exact inductionHypothesis.trans (Grows.insert_of_free free .directory)
  | file content _ noDirectory inductionHypothesis =>
      exact inductionHypothesis.trans (Grows.setContent noDirectory content)

theorem holds_file
    (leaves : Leaves before writes after)
    (write : Write)
    (member : write ∈ writes) :
    ∃ content, after.entry? write.1 = some (.file content) := by
  induction leaves with
  | nothing => simp at member
  | directory _ free inductionHypothesis =>
      obtain ⟨content, held⟩ := inductionHypothesis member
      exact (Grows.insert_of_free free .directory).file held
  | @file writes tree location content _ noDirectory inductionHypothesis =>
      rcases List.mem_append.mp member with earlier | last
      · obtain ⟨old, held⟩ := inductionHypothesis earlier
        exact (Grows.setContent noDirectory content).file held
      · rw [List.mem_singleton.mp last]
        exact ⟨content, entry?_insert_self noDirectory _⟩

theorem storesAll (leaves : Leaves before writes after) : after.StoresAll writes := by
  intro write member
  obtain ⟨content, held⟩ := leaves.holds_file write member
  exact stores_of_entry?_eq_file held

/-- Writing the same files again changes nothing. -/
theorem overwrite_eq (leaves : Leaves before writes after) :
    overwrite writes after = after := by
  induction leaves with
  | nothing => rfl
  | @directory writes tree location earlier free inductionHypothesis =>
      have unwritten : location ∉ writes.map Prod.fst := by
        intro written
        obtain ⟨write, member, rfl⟩ := List.mem_map.mp written
        obtain ⟨content, held⟩ := earlier.holds_file write member
        simp [free] at held
      rw [overwrite_insert earlier.storesAll unwritten, inductionHypothesis]
  | @file writes tree location content earlier _ inductionHypothesis =>
      rw [overwrite_append, overwrite_cons, overwrite_nil, setContent, setContent,
        insert_overwrite_insert earlier.storesAll, inductionHypothesis]

end Leaves

theorem grows_overwrite
    {tree : FileTree}
    {writes : List Write}
    (files : ∀ write ∈ writes, ∃ content, tree.entry? write.1 = some (.file content)) :
    Grows tree (overwrite writes tree) := by
  induction writes generalizing tree with
  | nil => exact Grows.refl tree
  | cons write writes inductionHypothesis =>
      obtain ⟨old, held⟩ := files write List.mem_cons_self
      have step : Grows tree (tree.setContent write.1 write.2) :=
        Grows.setContent (by simp [held]) write.2
      refine step.trans (inductionHypothesis ?_)
      intro other member
      obtain ⟨content, heldOther⟩ := files other (List.mem_cons_of_mem write member)
      exact step.file heldOther

end FileTree
end SchemaCodegen
