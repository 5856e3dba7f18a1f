import SchemaCodegen.Proofs.FileTree.Growth
import SchemaCodegen.Proofs.Text.Handover

/-!
# Temporary files

Temporary names differ from each other and from the name that they are made for.
So beside a file there is always a free one: a tree has fewer entries than there
are names to try.
-/

namespace SchemaCodegen
namespace FileTree

theorem tag_injective {first second : Nat} (same : tag first = tag second) :
    first = second := by
  have digits := (List.map_injective_iff.mpr fun _ _ => Symbol.char.inj) same
  have numbers := congrArg (fun characters => Nat.ofDigitChars 10 characters 0) digits
  simpa [Nat.ofDigitChars_append] using numbers

theorem encode_tag_injective
    {first second : Nat}
    (same : Utf8.encode (tag first) = Utf8.encode (tag second)) :
    first = second := by
  apply tag_injective
  have texts := congrArg Utf8.decode same
  simpa only [tag, Utf8.encode_map_char, Utf8.decode_flatMap_encodeChar] using texts

theorem temporaryName_injective
    {name : Text}
    {first second : Nat}
    (same : Utf8.encode (temporaryName name (tag first)) =
      Utf8.encode (temporaryName name (tag second))) :
    first = second := by
  apply encode_tag_injective
  simpa only [temporaryName, Utf8.encode_append, List.append_assoc,
    List.append_cancel_left_eq, List.append_cancel_right_eq] using same

theorem length_encode_temporaryName (name tag : Text) :
    (Utf8.encode (temporaryName name tag)).length =
      (Utf8.encode name).length + (Utf8.encode tag).length + 6 := by
  have dot : (Utf8.encode ".").length = 1 := by decide
  have ending : (Utf8.encode ".tmp").length = 4 := by decide
  simp only [temporaryName, Utf8.encode_append, List.length_append, dot, ending]
  omega

theorem temporaryName_ne (name tag : Text) :
    Utf8.encode (temporaryName name tag) ≠ Utf8.encode name := by
  intro same
  have lengths := congrArg List.length same
  rw [length_encode_temporaryName] at lengths
  omega

theorem temporaryName_ne_up (name tag : Text) : temporaryName name tag ≠ Path.up := by
  intro goesUp
  have lengths := congrArg (fun text => (Utf8.encode text).length) goesUp
  have dots : (Utf8.encode Path.up).length = 2 := by decide
  simp only [length_encode_temporaryName, dots] at lengths
  omega

/-- The locations that are tried for a temporary file. -/
def candidates (tree : FileTree) (parent : Location) (name : Text) : List Location :=
  (List.range (tree.entries.length + 1)).map fun tries =>
    parent ++ [Utf8.encode (temporaryName name (tag tries))]

theorem nodup_candidates
    (tree : FileTree)
    (parent : Location)
    (name : Text) :
    (tree.candidates parent name).Nodup := by
  unfold candidates
  rw [List.nodup_iff_pairwise_ne, List.pairwise_map]
  refine List.Pairwise.imp ?_ List.nodup_range
  intro first second different same
  apply different
  apply temporaryName_injective
  simpa using same

/-- A location on the way to the working directory is known by its length. -/
theorem eq_take_of_prefix
    {location way : Location}
    (onWay : location.isPrefixOf way = true) :
    location = way.take location.length := by
  rw [List.isPrefixOf_iff_prefix] at onWay
  exact List.prefix_iff_eq_take.mp onWay

theorem entry?_eq_none_of_freeName
    {tree : FileTree}
    {parent : Location}
    {name : Text}
    {free : FileName}
    (found : tree.freeName? parent name = some free) :
    tree.entry? (parent ++ [free]) = none := by
  simpa using List.find?_some found

/-- Beside a file of its name there is always a free temporary name. -/
theorem exists_freeName
    {tree : FileTree}
    {location : Location}
    {name : Text}
    (stores : tree.Stores location)
    (ends : location.getLast? = some (Utf8.encode name))
    (parent : Location) :
    ∃ free, tree.freeName? parent name = some free := by
  cases found : tree.freeName? parent name with
  | some free => exact ⟨free, rfl⟩
  | none =>
      exfalso
      have taken : ∀ candidate ∈ tree.candidates parent name,
          tree.entry? candidate ≠ none := by
        simpa [freeName?, candidates] using found
      -- The file itself has none of the names, so its entry takes none of them.
      have covered : tree.candidates parent name ⊆
          tree.workingDirectory.take (parent.length + 1) ::
            (tree.entries.map Prod.fst).erase location := by
        intro candidate member
        have held := taken candidate member
        obtain ⟨tries, _, rfl⟩ := List.mem_map.mp member
        unfold FileTree.entry? at held
        split at held
        case isTrue onWay =>
            have here := eq_take_of_prefix onWay
            simp only [List.length_append, List.length_singleton] at here
            exact List.mem_cons.mpr (Or.inl here)
        case isFalse =>
            refine List.mem_cons_of_mem _ ((List.mem_erase_of_ne ?_).mpr ?_)
            · rintro rfl
              simp [temporaryName_ne] at ends
            · obtain ⟨item, member, here⟩ :=
                (stores_iff tree _).mp (Option.isSome_iff_ne_none.mpr held)
              exact List.mem_map.mpr ⟨item, member, here.symm⟩
      have bound := (nodup_candidates tree parent name).length_le_of_subset covered
      obtain ⟨item, member, here⟩ := (stores_iff tree location).mp stores
      have present : location ∈ tree.entries.map Prod.fst :=
        List.mem_map.mpr ⟨item, member, here.symm⟩
      have erased := List.length_erase_of_mem present
      have nonempty := List.length_pos_of_mem present
      simp only [candidates, List.length_map, List.length_range, List.length_cons]
        at bound erased nonempty
      omega

theorem exists_freeName_of_place
    {tree : FileTree}
    {path : Path}
    {parent : Location}
    {name : FileName}
    {content : List UInt8}
    (placed : tree.place path = .ok (.named parent name))
    (held : tree.entry? (parent ++ [name]) = some (.file content))
    (directory : Location) :
    ∃ free, tree.freeName? directory path.name = some free := by
  have ends : (parent ++ [name]).getLast? = some (Utf8.encode path.name) := by
    rw [(leadsTo_of_place placed).name_eq, List.getLast?_append]
    rfl
  exact exists_freeName (stores_of_entry?_eq_file held) ends directory

/-- The path of a temporary file is taken if that of the file is. -/
theorem fault?_temporaryPath
    {path : Path}
    (usable : path.fault? = none) :
    (temporaryPath [] path).fault? = none := by
  rw [Path.fault?_eq_none_iff] at usable ⊢
  have nameUsable : path.name.handoverFault? = none := by
    rw [Path.name, List.getLastD_eq_getLast?]
    cases last : path.parts.getLast? with
    | none => rfl
    | some part => exact usable part (List.mem_of_getLast? last)
  have parts_eq : (temporaryPath [] path).parts =
      Path.collapse Path.up [] path.parent.parts ++ [temporaryName path.name shownTag] := by
    cases spelling : path.root <;>
      simp [temporaryPath, Path.parent, Path.absolute, Path.child, spelling]
  rw [parts_eq, List.forall_mem_append, List.forall_mem_singleton]
  constructor
  · intro part member
    rcases Path.mem_of_mem_collapse member with above | below
    · contradiction
    · exact usable part (List.mem_of_mem_dropLast below)
  · have dot : Text.handoverFault? "." = none := by decide
    have tagged : shownTag.handoverFault? = none := by decide
    have ending : Text.handoverFault? ".tmp" = none := by decide
    simp [temporaryName, nameUsable, dot, tagged, ending]

/-- A temporary file can be created where a directory has a free name for it. -/
theorem createTemporary_of_place
    {tree : FileTree}
    {path : Path}
    {parent : Location}
    {last name : FileName}
    (usable : (temporaryPath [] path).fault? = none)
    (placed : tree.place (tree.shownTemporary path) = .ok (.named parent last))
    (found : tree.freeName? parent path.name = some name) :
    tree.createTemporary path =
      .ok (⟨parent ++ [name], tree.shownTemporary path⟩,
        tree.insert (parent ++ [name]) (.file [])) := by
  unfold createTemporary
  simp [usable, placed, found]

/-- A temporary file is only created under a free name of a directory. -/
theorem createTemporary_eq_ok
    {tree created : FileTree}
    {path : Path}
    {temporary : Temporary}
    (made : tree.createTemporary path = .ok (temporary, created)) :
    (temporaryPath [] path).fault? = none ∧
      (∃ parent last name,
        tree.place (tree.shownTemporary path) = .ok (.named parent last) ∧
        tree.freeName? parent path.name = some name ∧
        temporary = ⟨parent ++ [name], tree.shownTemporary path⟩) ∧
      tree.entry? temporary.location = none ∧
      created = tree.insert temporary.location (.file []) := by
  unfold createTemporary at made
  cases usable : (temporaryPath [] path).fault? with
  | some fault => simp [usable] at made
  | none =>
      cases placed : tree.place (tree.shownTemporary path) with
      | error refusal => simp [usable, placed] at made
      | ok place =>
          cases place with
          | directory location => simp [usable, placed] at made
          | named parent last =>
              cases found : tree.freeName? parent path.name with
              | none => simp [usable, placed, found] at made
              | some name =>
                  simp only [usable, placed, found, Except.ok.injEq, Prod.mk.injEq] at made
                  obtain ⟨rfl, rfl⟩ := made
                  exact ⟨rfl, ⟨parent, last, name, rfl, found, rfl⟩,
                    entry?_eq_none_of_freeName found, rfl⟩

end FileTree
end SchemaCodegen
