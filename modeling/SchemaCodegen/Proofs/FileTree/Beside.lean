import SchemaCodegen.Proofs.FileTree.Temporary

/-!
# Beside a file

The directory of a temporary file is found by the spelling of a path, the file itself
by following the path.  Both ways lead to the same directory, because whatever is
reached by following a path can be reached from the root directory without going up.
-/

namespace SchemaCodegen
namespace FileTree

/-- The working directory is reached by names that directories can have. -/
def IsProper (tree : FileTree) : Prop :=
  ∀ name ∈ tree.workingDirectory, name ≠ up ∧ isLongName name = false

instance (tree : FileTree) : Decidable tree.IsProper :=
  List.decidableBAll (fun name => name ≠ up ∧ isLongName name = false) tree.workingDirectory

/-- A temporary file for a path has a name and a path that are not too long. -/
structure HasRoom (tree : FileTree) (path : Path) : Prop where
  /-- The name of the temporary file is not too long. -/
  name : (Utf8.encode (temporaryName path.name shownTag)).length ≤ nameLimit
  /-- Its absolute path is not too long. -/
  path : (Utf8.encode (tree.shownTemporary path).text).length ≤ pathLimit

/-- A temporary name has fourteen bytes more than the name that it is made for. -/
theorem hasRoom_iff {tree : FileTree} {path : Path} :
    tree.HasRoom path ↔
      (Utf8.encode path.name).length ≤ 241 ∧
        (Utf8.encode (tree.shownTemporary path).text).length ≤ pathLimit := by
  have size_eq : (Utf8.encode (temporaryName path.name shownTag)).length =
      (Utf8.encode path.name).length + 14 := by
    have tagged : (Utf8.encode shownTag).length = 8 := by decide
    rw [length_encode_temporaryName, tagged]
  have limit_eq : nameLimit = 255 := rfl
  constructor
  · rintro ⟨name, fits⟩
    exact ⟨by omega, fits⟩
  · rintro ⟨name, fits⟩
    exact ⟨by omega, fits⟩

/-- The directories that are reached from the root directory without going up. -/
inductive Reached (tree : FileTree) : Location → Prop
  /-- The root directory. -/
  | root : Reached tree []
  /-- A directory in a directory. -/
  | child {directory : Location} {name : FileName} :
      Reached tree directory →
      name ≠ up →
      isLongName name = false →
      tree.entry? (directory ++ [name]) = some .directory →
      Reached tree (directory ++ [name])

theorem step_of_directory
    {tree : FileTree}
    {directory : Location}
    {name : FileName}
    (notUp : name ≠ up)
    (short : isLongName name = false)
    (held : tree.entry? (directory ++ [name]) = some .directory) :
    tree.step directory name = .ok (directory ++ [name]) := by
  simp [step, notUp, short, held]

namespace Reached

variable {tree : FileTree} {directory reached : Location}

theorem walk_root (isReached : Reached tree directory) :
    tree.walk [] directory = .ok directory := by
  induction isReached with
  | root => rfl
  | child _ notUp short held inductionHypothesis =>
      rw [walk_append inductionHypothesis, walk, step_of_directory notUp short held]
      rfl

theorem dropLast (isReached : Reached tree directory) :
    Reached tree directory.dropLast := by
  cases isReached with
  | root => exact .root
  | child above _ _ _ => rwa [List.dropLast_concat]

theorem of_step
    {name : FileName}
    (isReached : Reached tree directory)
    (stepped : tree.step directory name = .ok reached) :
    Reached tree reached := by
  unfold step at stepped
  by_cases goesUp : name = up
  · simp only [goesUp, if_true, Except.ok.injEq] at stepped
    exact stepped ▸ isReached.dropLast
  · by_cases long : isLongName name = true
    · simp [goesUp, long] at stepped
    · simp only [goesUp, long, if_false, Bool.false_eq_true] at stepped
      cases held : tree.entry? (directory ++ [name]) with
      | none => simp [held] at stepped
      | some entry =>
          cases entry with
          | file content => simp [held] at stepped
          | directory =>
              simp only [held, Except.ok.injEq] at stepped
              exact stepped ▸ isReached.child goesUp (by simpa using long) held

theorem of_walk
    {names : List FileName}
    (isReached : Reached tree directory)
    (walked : tree.walk directory names = .ok reached) :
    Reached tree reached := by
  induction names generalizing directory with
  | nil =>
      rw [walk, Except.ok.injEq] at walked
      exact walked ▸ isReached
  | cons name names inductionHypothesis =>
      cases stepped : tree.step directory name with
      | error refusal => simp [walk, stepped] at walked
      | ok next =>
          simp only [walk, stepped] at walked
          exact inductionHypothesis (isReached.of_step stepped) walked

end Reached

theorem reached_take
    {tree : FileTree}
    (proper : tree.IsProper)
    (count : Nat) :
    Reached tree (tree.workingDirectory.take count) := by
  induction count with
  | zero => exact .root
  | succ count inductionHypothesis =>
      rw [List.take_add_one]
      cases found : tree.workingDirectory[count]? with
      | none => simpa using inductionHypothesis
      | some name =>
          have usable := proper name (List.mem_of_getElem? found)
          refine inductionHypothesis.child usable.1 usable.2 ?_
          have onWay : tree.workingDirectory.take count ++ [name] =
              tree.workingDirectory.take (count + 1) := by
            rw [List.take_add_one, found]
            rfl
          rw [FileTree.entry?, onWay,
            if_pos (List.isPrefixOf_iff_prefix.mpr (List.take_prefix _ _))]

theorem reached_start
    {tree : FileTree}
    (proper : tree.IsProper)
    (path : Path) :
    Reached tree (tree.start path) := by
  unfold start
  split
  · exact .root
  · simpa using reached_take proper tree.workingDirectory.length

theorem start_shownTemporary (tree : FileTree) (path : Path) :
    tree.start (tree.shownTemporary path) = [] := by
  cases spelling : path.root <;>
    simp [start, shownTemporary, temporaryPath, Path.parent, Path.absolute, Path.child,
      Path.isAbsolute, spelling]

theorem parts_shownTemporary (tree : FileTree) (path : Path) :
    (tree.shownTemporary path).parts =
      Path.collapse Path.up ((tree.start path).map Utf8.decode) path.parent.parts ++
        [temporaryName path.name shownTag] := by
  cases spelling : path.root <;>
    simp [shownTemporary, temporaryPath, Path.parent, Path.absolute, Path.child, start,
      Path.isAbsolute, spelling]

theorem names_shownTemporary (tree : FileTree) (path : Path) :
    names (tree.shownTemporary path) =
      tree.spelled path.parent ++ [Utf8.encode (temporaryName path.name shownTag)] := by
  have back : (tree.start path).map (Utf8.encode ∘ Utf8.decode) = tree.start path := by
    simp [Function.comp_def]
  have start_eq : tree.start path.parent = tree.start path := rfl
  rw [names, parts_shownTemporary, List.map_append,
    Path.map_collapse (fun _ => encode_eq_up_iff), List.map_map, back, spelled, start_eq,
    ← names]
  rfl

section Beside

variable
  {tree : FileTree}
  {path : Path}
  {parent : Location}
  {name : FileName}
  (proper : tree.IsProper)
  (placed : tree.place path = .ok (.named parent name))
include proper placed

/-- The way to a temporary file goes to the directory of the file it is for. -/
theorem walk_shownTemporary :
    tree.walk (tree.start (tree.shownTemporary path))
      (names (tree.shownTemporary path)).dropLast = .ok parent := by
  have leads := leadsTo_of_place placed
  have spelled_eq : tree.spelled path.parent = parent := by
    rw [spelled, names_parent]
    exact collapse_of_walk leads.walked
  rw [start_shownTemporary, names_shownTemporary, List.dropLast_concat, spelled_eq]
  exact ((reached_start proper path).of_walk leads.walked).walk_root

theorem place_shownTemporary (room : tree.HasRoom path) :
    tree.place (tree.shownTemporary path) =
      .ok (.named parent (Utf8.encode (temporaryName path.name shownTag))) := by
  have fits : ¬pathLimit < (Utf8.encode (tree.shownTemporary path).text).length :=
    Nat.not_lt.mpr room.path
  have short : isLongName (Utf8.encode (temporaryName path.name shownTag)) = false :=
    decide_eq_false (Nat.not_lt.mpr room.name)
  simp only [place, follow_eq_walk]
  rw [if_neg fits, walk_shownTemporary proper placed, names_shownTemporary]
  simp [temporaryName_ne_up, short]

theorem place_shownTemporary_of_not_hasRoom (crowded : ¬tree.HasRoom path) :
    tree.place (tree.shownTemporary path) = .error .nameTooLong := by
  by_cases fits : (Utf8.encode (tree.shownTemporary path).text).length ≤ pathLimit
  · have long : isLongName (Utf8.encode (temporaryName path.name shownTag)) = true := by
      refine decide_eq_true (Nat.not_le.mp fun name => ?_)
      exact crowded ⟨name, fits⟩
    simp only [place, follow_eq_walk]
    rw [if_neg (Nat.not_lt.mpr fits), walk_shownTemporary proper placed,
      names_shownTemporary]
    simp [temporaryName_ne_up, long]
  · rw [place, if_pos (Nat.not_le.mp fits)]

/-- A temporary file lies in the same directory as the file it is for. -/
theorem location_of_createTemporary
    {temporary : Temporary}
    {created : FileTree}
    (made : tree.createTemporary path = .ok (temporary, created)) :
    ∃ free, temporary.location = parent ++ [free] ∧
      tree.freeName? parent path.name = some free := by
  obtain ⟨_, ⟨directory, last, free, placedBeside, found, rfl⟩, _⟩ :=
    createTemporary_eq_ok made
  have walked := (leadsTo_of_place placedBeside).walked
  rw [walk_shownTemporary proper placed, Except.ok.injEq] at walked
  subst walked
  exact ⟨free, rfl, found⟩

end Beside

/-- Beside a file that can be read a temporary file can be created, if there is room. -/
theorem exists_createTemporary
    {tree : FileTree}
    {path : Path}
    {bytes : List UInt8}
    (proper : tree.IsProper)
    (room : tree.HasRoom path)
    (holds : tree.read path = .ok bytes) :
    ∃ result, tree.createTemporary path = .ok result := by
  obtain ⟨usable, parent, name, placed, held⟩ := read_eq_ok_iff.mp holds
  obtain ⟨free, found⟩ := exists_freeName_of_place placed held parent
  exact ⟨_, createTemporary_of_place (fault?_temporaryPath usable)
    (place_shownTemporary proper placed room) found⟩

end FileTree
end SchemaCodegen
