import SchemaCodegen.FileTree.Basic

/-!
# Entries of a file tree

Putting an entry at a location changes what that location holds and nothing
else.  Two such changes at different places commute, and of two at the same place
only the later one counts.
-/

namespace SchemaCodegen
namespace FileTree

/-- A location off the way to the working directory has an entry of its own. -/
def Stores (tree : FileTree) (location : Location) : Prop :=
  (tree.entries.lookup location).isSome = true

theorem stores_iff
    (tree : FileTree)
    (location : Location) :
    tree.Stores location ↔ ∃ item ∈ tree.entries, location = item.1 := by
  simp [Stores]

theorem insert_of_stores
    {tree : FileTree}
    {location : Location}
    (stores : tree.Stores location)
    (entry : Entry) :
    tree.insert location entry =
      { tree with
        entries := tree.entries.map fun item =>
          if item.1 = location then (location, entry) else item } := by
  unfold Stores at stores
  rw [insert, if_pos stores]

theorem insert_of_not_stores
    {tree : FileTree}
    {location : Location}
    (free : ¬tree.Stores location)
    (entry : Entry) :
    tree.insert location entry =
      { tree with entries := (location, entry) :: tree.entries } := by
  unfold Stores at free
  rw [insert, if_neg free]

@[simp] theorem workingDirectory_insert
    (tree : FileTree)
    (location : Location)
    (entry : Entry) :
    (tree.insert location entry).workingDirectory = tree.workingDirectory := by
  unfold insert
  split <;> rfl

@[simp] theorem lookup_insert_self
    (tree : FileTree)
    (location : Location)
    (entry : Entry) :
    (tree.insert location entry).entries.lookup location = some entry := by
  by_cases stores : tree.Stores location
  · rw [insert_of_stores stores]
    unfold Stores at stores
    generalize tree.entries = entries at stores ⊢
    induction entries with
    | nil => simp at stores
    | cons item rest inductionHypothesis =>
        by_cases here : item.1 = location
        · simp [here]
        · have differs : (location == item.1) = false := by
            simpa using Ne.symm here
          rw [List.lookup_cons, differs] at stores
          simp only [List.map_cons, if_neg here]
          rw [List.lookup_cons, differs]
          exact inductionHypothesis stores
  · simp [insert_of_not_stores stores]

theorem lookup_insert_of_ne
    (tree : FileTree)
    {location other : Location}
    (different : other ≠ location)
    (entry : Entry) :
    (tree.insert location entry).entries.lookup other = tree.entries.lookup other := by
  have differs : (other == location) = false := by simpa using different
  by_cases stores : tree.Stores location
  · rw [insert_of_stores stores]
    generalize tree.entries = entries
    induction entries with
    | nil => rfl
    | cons item rest inductionHypothesis =>
        obtain ⟨key, old⟩ := item
        by_cases here : key = location
        · subst key
          simp [List.lookup_cons, differs, inductionHypothesis]
        · simp [List.lookup_cons, here, inductionHypothesis]
  · rw [insert_of_not_stores stores, List.lookup_cons, differs]

/-- Everything but the location of the change is as before. -/
theorem entry?_insert_of_ne
    (tree : FileTree)
    {location other : Location}
    (different : other ≠ location)
    (entry : Entry) :
    FileTree.entry? (tree.insert location entry) other = tree.entry? other := by
  simp only [FileTree.entry?, workingDirectory_insert, lookup_insert_of_ne tree different]

theorem entry?_insert_self
    {tree : FileTree}
    {location : Location}
    (off : tree.entry? location ≠ some .directory)
    (entry : Entry) :
    FileTree.entry? (tree.insert location entry) location = some entry := by
  have outside : ¬location.isPrefixOf tree.workingDirectory = true := by
    intro inside
    simp [FileTree.entry?, inside] at off
  rw [FileTree.entry?, workingDirectory_insert, if_neg outside, lookup_insert_self]

theorem not_stores_of_entry?_eq_none
    {tree : FileTree}
    {location : Location}
    (free : tree.entry? location = none) :
    ¬tree.Stores location := by
  unfold entry? at free
  split at free
  · contradiction
  · simp [Stores, free]

theorem stores_of_entry?_eq_file
    {tree : FileTree}
    {location : Location}
    {content : List UInt8}
    (holds : tree.entry? location = some (.file content)) :
    tree.Stores location := by
  unfold entry? at holds
  split at holds
  · simp at holds
  · simp [Stores, holds]

theorem stores_insert_self
    (tree : FileTree)
    (location : Location)
    (entry : Entry) :
    (tree.insert location entry).Stores location := by
  simp [Stores]

theorem Stores.insert
    {tree : FileTree}
    {location : Location}
    (stores : tree.Stores location)
    (other : Location)
    (entry : Entry) :
    (tree.insert other entry).Stores location := by
  by_cases same : location = other
  · subst same
    exact stores_insert_self tree location entry
  · unfold Stores
    rwa [lookup_insert_of_ne tree same]

theorem map_entries_of_not_stores
    {tree : FileTree}
    {location : Location}
    (free : ¬tree.Stores location)
    (entry : Entry) :
    (tree.entries.map fun item =>
      if item.1 = location then (location, entry) else item) = tree.entries := by
  have same : ∀ item ∈ tree.entries,
      (if item.1 = location then (location, entry) else item) = item := by
    intro item member
    rw [if_neg]
    intro here
    exact free ((stores_iff tree location).mpr ⟨item, member, here.symm⟩)
  exact (List.map_congr_left same).trans (List.map_id _)

/-- Of two changes at one location the later one counts. -/
@[simp] theorem insert_insert
    (tree : FileTree)
    (location : Location)
    (first second : Entry) :
    (tree.insert location first).insert location second =
      tree.insert location second := by
  rw [insert_of_stores (stores_insert_self tree location first)]
  by_cases stores : tree.Stores location
  · rw [insert_of_stores stores, insert_of_stores stores]
    simp only [List.map_map]
    congr 2
    funext item
    by_cases here : item.1 = location <;> simp [here]
  · rw [insert_of_not_stores stores, insert_of_not_stores stores]
    simp [map_entries_of_not_stores stores]

/-- Changes at different locations commute when one of them adds nothing. -/
theorem insert_comm
    {tree : FileTree}
    {first second : Location}
    (different : first ≠ second)
    (stores : tree.Stores second)
    (firstEntry secondEntry : Entry) :
    (tree.insert first firstEntry).insert second secondEntry =
      (tree.insert second secondEntry).insert first firstEntry := by
  rw [insert_of_stores (stores.insert first firstEntry)]
  by_cases storesFirst : tree.Stores first
  · rw [insert_of_stores storesFirst, insert_of_stores (storesFirst.insert second _),
      insert_of_stores stores]
    simp only [List.map_map]
    congr 2
    funext item
    by_cases atFirst : item.1 = first
    · simp [atFirst, different]
    · by_cases atSecond : item.1 = second <;>
        simp [atFirst, atSecond, Ne.symm different]
  · have stillFree : ¬(tree.insert second secondEntry).Stores first := by
      unfold Stores at storesFirst ⊢
      rwa [lookup_insert_of_ne tree different]
    rw [insert_of_not_stores storesFirst, insert_of_not_stores stillFree,
      insert_of_stores stores]
    simp [different]

theorem erase_insert
    {tree : FileTree}
    {location : Location}
    (free : ¬tree.Stores location)
    (entry : Entry) :
    (tree.insert location entry).erase location = tree := by
  rw [insert_of_not_stores free, erase]
  have kept : tree.entries.filter (fun item => item.1 ≠ location) = tree.entries := by
    rw [List.filter_eq_self]
    intro item member
    have elsewhere : item.1 ≠ location := fun here =>
      free ((stores_iff tree location).mpr ⟨item, member, here.symm⟩)
    simpa using elsewhere
  rw [List.filter_cons_of_neg (by simp), kept]

end FileTree
end SchemaCodegen
