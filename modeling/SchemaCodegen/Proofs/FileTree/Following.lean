import SchemaCodegen.FileTree.Access
import SchemaCodegen.Proofs.Path.Descent
import SchemaCodegen.Proofs.Path.Spelling

/-!
# Where a path leads

Following names through directories ends where the spelling of the names says,
every double dot taking back the name before it.  So a path that can be followed leads
to a location that only depends on the path and the working directory.
-/

namespace SchemaCodegen
namespace FileTree

@[simp] theorem encode_eq_up_iff {part : Text} : Utf8.encode part = up ↔ part = Path.up := by
  constructor
  · intro spelled
    obtain ⟨behind, rfl, spelledBehind⟩ := Utf8.exists_eq_cons_of_encode (by decide) spelled
    obtain ⟨last, rfl, spelledLast⟩ :=
      Utf8.exists_eq_cons_of_encode (by decide) spelledBehind
    rw [Utf8.encode_eq_nil_iff.mp spelledLast]
    rfl
  · rintro rfl
    rfl

@[simp] theorem names_parent (path : Path) : names path.parent = (names path).dropLast :=
  List.map_dropLast

theorem encode_name
    {path : Path}
    {above : List FileName}
    {last : FileName}
    (names_eq : names path = above ++ [last]) :
    Utf8.encode path.name = last := by
  have ends : (path.parts.map Utf8.encode).getLast? = some last := by
    rw [← names, names_eq, List.getLast?_concat]
  rw [List.getLast?_map, Option.map_eq_some_iff] at ends
  obtain ⟨part, isLast, rfl⟩ := ends
  rw [Path.name, List.getLastD_eq_getLast?, isLast, Option.getD_some]

/-! ## Walking and following -/

theorem lookup_below
    (name : FileName)
    (location : Location)
    (entries : List (Location × Entry)) :
    (below name entries).lookup location = entries.lookup (name :: location) := by
  induction entries with
  | nil => rfl
  | cons item entries inductionHypothesis =>
      obtain ⟨place, entry⟩ := item
      rw [below] at inductionHypothesis
      cases place with
      | nil => simp [below, List.lookup_cons, inductionHypothesis]
      | cons first rest =>
          by_cases here : first = name
          · simp [below, here, List.lookup_cons, inductionHypothesis]
          · have different : (name == first) = false := by simpa using Ne.symm here
            simp [below, here, different, List.lookup_cons, inductionHypothesis]

theorem lookup_entriesBelow (tree : FileTree) (location behind : Location) :
    (tree.entriesBelow location).lookup behind = tree.entries.lookup (location ++ behind) := by
  unfold entriesBelow
  generalize tree.entries = entries
  induction location generalizing entries with
  | nil => rfl
  | cons name location inductionHypothesis =>
      rw [List.foldl_cons, inductionHypothesis, lookup_below, List.cons_append]

/-- Looking only at the entries below each directory leads to the same place. -/
theorem follow_eq_walk (tree : FileTree) (directory : Location) (names : List FileName) :
    tree.follow directory (tree.entriesBelow directory) names = tree.walk directory names := by
  induction names generalizing directory with
  | nil => rfl
  | cons name names inductionHypothesis =>
      have below_eq : below name (tree.entriesBelow directory) =
          tree.entriesBelow (directory ++ [name]) := by
        simp [entriesBelow]
      have held_eq : (if (directory ++ [name]).isPrefixOf tree.workingDirectory then
            some Entry.directory
          else (tree.entriesBelow (directory ++ [name])).lookup []) =
            tree.entry? (directory ++ [name]) := by
        rw [FileTree.entry?, lookup_entriesBelow, List.append_nil]
      rw [follow, walk, step]
      by_cases goesUp : name = up
      · simp only [goesUp, if_true, inductionHypothesis]
      · by_cases long : isLongName name = true
        · simp only [goesUp, long, if_true, if_false]
        · simp only [goesUp, long, if_false, below_eq, held_eq, Bool.false_eq_true]
          cases tree.entry? (directory ++ [name]) with
          | none => rfl
          | some entry =>
              cases entry with
              | file content => rfl
              | directory => exact inductionHypothesis _

theorem collapse_of_step
    {tree : FileTree}
    {directory reached : Location}
    {name : FileName}
    (stepped : tree.step directory name = .ok reached) :
    Path.collapse up directory [name] = reached := by
  unfold step at stepped
  by_cases up : name = up
  · simpa [up, Path.collapse] using stepped
  · simp only [up, if_false] at stepped
    by_cases long : isLongName name = true
    · simp [long] at stepped
    · simp only [long, Bool.false_eq_true, if_false] at stepped
      cases held : tree.entry? (directory ++ [name]) with
      | none => simp [held] at stepped
      | some entry =>
          cases entry with
          | file content => simp [held] at stepped
          | directory => simpa [held, up, Path.collapse] using stepped

/-- Names lead to the directory that their spelling tells. -/
theorem collapse_of_walk
    {tree : FileTree}
    {directory reached : Location}
    {names : List FileName}
    (walked : tree.walk directory names = .ok reached) :
    Path.collapse up directory names = reached := by
  induction names generalizing directory with
  | nil => simpa [walk, Path.collapse] using walked
  | cons name names inductionHypothesis =>
      cases stepped : tree.step directory name with
      | error refusal => simp [walk, stepped] at walked
      | ok next =>
          simp only [walk, stepped] at walked
          rw [← inductionHypothesis walked, ← collapse_of_step stepped]
          rfl

theorem walk_append
    {tree : FileTree}
    {directory middle : Location}
    {first : List FileName}
    (walked : tree.walk directory first = .ok middle)
    (second : List FileName) :
    tree.walk directory (first ++ second) = tree.walk middle second := by
  induction first generalizing directory with
  | nil =>
      simp only [walk, Except.ok.injEq] at walked
      rw [walked, List.nil_append]
  | cons name names inductionHypothesis =>
      cases stepped : tree.step directory name with
      | error refusal => simp [walk, stepped] at walked
      | ok next =>
          simp only [walk, stepped] at walked
          simp only [List.cons_append, walk, stepped]
          exact inductionHypothesis walked

/-- The location that the spelling of a path tells. -/
def spelled (tree : FileTree) (path : Path) : Location :=
  Path.collapse up (tree.start path) (names path)

/--
A path to a name in a directory ends with that name, and the directory is where
the other parts lead.
-/
structure LeadsTo
    (tree : FileTree)
    (path : Path)
    (parent : Location)
    (name : FileName) : Prop where
  /-- The path ends with the name. -/
  names_eq : names path = (names path).dropLast ++ [name]
  /-- The other names can be followed. -/
  walked : tree.walk (tree.start path) (names path).dropLast = .ok parent
  /-- The name does not lead up. -/
  notUp : name ≠ up
  /-- The name is not too long. -/
  short : isLongName name = false

theorem leadsTo_of_place
    {tree : FileTree}
    {path : Path}
    {parent : Location}
    {name : FileName}
    (placed : tree.place path = .ok (.named parent name)) :
    tree.LeadsTo path parent name := by
  simp only [place, follow_eq_walk] at placed
  by_cases long : pathLimit < (Utf8.encode path.text).length
  · simp [long] at placed
  · simp only [long, if_false] at placed
    cases walked : tree.walk (tree.start path) (names path).dropLast with
    | error refusal => simp [walked] at placed
    | ok reached =>
        simp only [walked] at placed
        cases last : (names path).getLast? with
        | none => simp [last] at placed
        | some part =>
            simp only [last] at placed
            by_cases goesUp : part = up
            · simp [goesUp] at placed
            · by_cases longName : isLongName part = true
              · simp [goesUp, longName] at placed
              · simp only [goesUp, longName, if_false, Bool.false_eq_true,
                  Except.ok.injEq, Place.named.injEq] at placed
                obtain ⟨rfl, rfl⟩ := placed
                obtain ⟨others, names_eq⟩ := List.getLast?_eq_some_iff.mp last
                exact
                  { names_eq := by simp [names_eq]
                    walked := walked
                    notUp := goesUp
                    short := by simpa using longName }

namespace LeadsTo

variable {tree : FileTree} {path : Path} {parent : Location} {name : FileName}

theorem name_eq (leads : tree.LeadsTo path parent name) : Utf8.encode path.name = name :=
  encode_name leads.names_eq

theorem spelled_eq (leads : tree.LeadsTo path parent name) :
    tree.spelled path = parent ++ [name] := by
  rw [spelled, leads.names_eq, Path.collapse_append, collapse_of_walk leads.walked,
    Path.collapse_cons_of_ne leads.notUp, Path.collapse_nil]

theorem walk_eq
    (leads : tree.LeadsTo path parent name)
    (held : tree.entry? (parent ++ [name]) = some .directory) :
    tree.walk (tree.start path) (names path) = .ok (parent ++ [name]) := by
  rw [leads.names_eq, walk_append leads.walked]
  have notLong : ¬isLongName name = true := by simp [leads.short]
  simp [walk, step, leads.notUp, notLong, held]

end LeadsTo

theorem eq_of_place
    {tree : FileTree}
    {path : Path}
    {parent otherParent : Location}
    {name otherName : FileName}
    (placed : tree.place path = .ok (.named parent name))
    (placedAgain : tree.place path = .ok (.named otherParent otherName)) :
    parent = otherParent ∧ name = otherName := by
  simpa using placed.symm.trans placedAgain

/-- A path names a file exactly when it leads to a name that a file has. -/
theorem find_eq_file_iff
    {tree : FileTree}
    {path : Path}
    {content : List UInt8} :
    tree.find path = .ok (.file content) ↔
      ∃ parent name, tree.place path = .ok (.named parent name) ∧
        tree.entry? (parent ++ [name]) = some (.file content) := by
  unfold find
  cases placed : tree.place path with
  | error refusal => simp
  | ok place =>
      cases place with
      | directory location => simp
      | named parent name =>
          simp only [Except.ok.injEq, Place.named.injEq, and_assoc, exists_and_left,
            exists_eq_left']
          cases held : tree.entry? (parent ++ [name]) <;> simp

theorem read_eq_ok_iff
    {tree : FileTree}
    {path : Path}
    {content : List UInt8} :
    tree.read path = .ok content ↔
      path.fault? = none ∧ ∃ parent name, tree.place path = .ok (.named parent name) ∧
        tree.entry? (parent ++ [name]) = some (.file content) := by
  rw [← find_eq_file_iff]
  unfold read
  cases usable : path.fault? with
  | some fault => simp
  | none =>
      cases found : tree.find path with
      | error refusal => simp
      | ok entry => cases entry <;> simp

/-- A file in the working directory is read by its name. -/
theorem read_eq_ok_of_entry?
    {tree : FileTree}
    {name : Text}
    {content : List UInt8}
    (usable : name.handoverFault? = none)
    (notUp : name ≠ Path.up)
    (short : (Utf8.encode name).length ≤ nameLimit)
    (held : tree.entry? (tree.workingDirectory ++ [Utf8.encode name]) = some (.file content)) :
    tree.read ⟨.none, [name]⟩ = .ok content := by
  have text_eq : Path.text ⟨.none, [name]⟩ = name := by
    simp [Path.text, Root.text, Path.joinParts]
  have fits : ¬pathLimit < (Utf8.encode (Path.text ⟨.none, [name]⟩)).length := by
    have limits : nameLimit ≤ pathLimit := by decide
    rw [text_eq]
    omega
  have notLong : isLongName (Utf8.encode name) = false := decide_eq_false (Nat.not_lt.mpr short)
  have placed : tree.place ⟨.none, [name]⟩ =
      .ok (.named tree.workingDirectory (Utf8.encode name)) := by
    simp only [place, follow_eq_walk]
    rw [if_neg fits]
    simp [walk, start, names, Path.isAbsolute, notUp, notLong]
  have clean : Path.fault? ⟨.none, [name]⟩ = none := by rw [Path.fault?, text_eq, usable]
  exact read_eq_ok_iff.mpr ⟨clean, tree.workingDirectory, Utf8.encode name, placed, held⟩

/--
A path names a directory exactly when it leads to one without a last name, or to
a name that a directory has.
-/
theorem isDirectory_iff
    {tree : FileTree}
    {path : Path} :
    tree.isDirectory path = true ↔
      (∃ location, tree.place path = .ok (.directory location)) ∨
        ∃ parent name, tree.place path = .ok (.named parent name) ∧
          tree.entry? (parent ++ [name]) = some .directory := by
  unfold isDirectory find
  cases placed : tree.place path with
  | error refusal => simp
  | ok place =>
      cases place with
      | directory location => simp
      | named parent name =>
          simp only [Except.ok.injEq, Place.named.injEq, and_assoc, exists_and_left,
            exists_eq_left', reduceCtorEq, exists_false, false_or]
          cases held : tree.entry? (parent ++ [name]) with
          | none => simp
          | some entry => cases entry <;> simp

theorem exists_walk_of_append
    {tree : FileTree}
    {directory reached : Location}
    {names : List FileName}
    {last : FileName}
    (walked : tree.walk directory (names ++ [last]) = .ok reached) :
    ∃ parent, tree.walk directory names = .ok parent ∧
      tree.step parent last = .ok reached := by
  induction names generalizing directory with
  | nil =>
      cases stepped : tree.step directory last with
      | error refusal => simp [walk, stepped] at walked
      | ok next =>
          simp only [List.nil_append, walk, stepped, Except.ok.injEq] at walked
          exact ⟨directory, rfl, by rw [stepped, walked]⟩
  | cons name names inductionHypothesis =>
      cases stepped : tree.step directory name with
      | error refusal => simp [walk, stepped] at walked
      | ok next =>
          simp only [List.cons_append, walk, stepped] at walked
          obtain ⟨parent, reachedParent, steppedLast⟩ := inductionHypothesis walked
          exact ⟨parent, by simp [walk, stepped, reachedParent], steppedLast⟩

/-- A path through directories names a directory, unless it is too long. -/
theorem isDirectory_of_walk
    {tree : FileTree}
    {path : Path}
    {location : Location}
    (short : (Utf8.encode path.text).length ≤ pathLimit)
    (walked : tree.walk (tree.start path) (names path) = .ok location) :
    tree.isDirectory path = true := by
  have notLong : ¬pathLimit < (Utf8.encode path.text).length := by omega
  rw [isDirectory_iff]
  simp only [place, follow_eq_walk, notLong, if_false]
  rcases List.eq_nil_or_concat (names path) with none | ⟨above, last, names_eq⟩
  · rw [none]
    exact Or.inl ⟨tree.start path, by simp [walk]⟩
  · rw [List.concat_eq_append] at names_eq
    rw [names_eq] at walked ⊢
    obtain ⟨parent, reached, stepped⟩ := exists_walk_of_append walked
    simp only [List.dropLast_concat, reached, List.getLast?_concat]
    unfold step at stepped
    by_cases goesUp : last = up
    · exact Or.inl ⟨parent.dropLast, by simp [goesUp]⟩
    · by_cases longName : isLongName last = true
      · simp [goesUp, longName] at stepped
      · simp only [goesUp, longName, Bool.false_eq_true, if_false] at stepped ⊢
        cases held : tree.entry? (parent ++ [last]) with
        | none => simp [held] at stepped
        | some entry =>
            cases entry with
            | file content => simp [held] at stepped
            | directory => exact Or.inr ⟨parent, last, rfl, held⟩

/-- The directory that a path leads into is named by the path without its last part. -/
theorem isDirectory_parent
    {tree : FileTree}
    {path : Path}
    {parent : Location}
    {name : FileName}
    (placed : tree.place path = .ok (.named parent name)) :
    tree.isDirectory path.parent = true := by
  have leads := leadsTo_of_place placed
  have short : ¬pathLimit < (Utf8.encode path.text).length := by
    intro long
    simp [place, long] at placed
  have bound := Path.length_encode_text_parent_le path
  have roomy : 1 ≤ pathLimit := by decide
  have walked := leads.walked
  rw [← names_parent] at walked
  exact isDirectory_of_walk (by omega) walked

end FileTree
end SchemaCodegen
