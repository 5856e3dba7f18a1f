import Mathlib.Data.List.Basic
import SchemaCodegen.Proofs.Rename.WholeIdentifier
import SchemaCodegen.Proofs.Schema.TypeName

/-!
# Clashes with declared names

Renaming frees the declared names for the plain structs.  A declared name stays in
some bindings for two reasons only: the search for names does not find it, or a name
that is first found after it becomes equal to it by its suffix.
-/

namespace SchemaCodegen
namespace Rename

open Schema (Declares DeclaresBehind EndsInName typeNames)
open Text (Token tokens)

/-! ## Renamed runs -/

theorem renameRun_append
    (suffix : Text)
    (early late : List Text)
    (run : Text) :
    renameRun suffix (early ++ late) run =
      renameRun suffix late (renameRun suffix early run) := by
  unfold renameRun
  rw [List.foldl_append]

theorem renameRun_of_not_mem
    {names : List Text}
    {run : Text}
    (absent : run ∉ names)
    (suffix : Text) :
    renameRun suffix names run = run := by
  induction names with
  | nil => rfl
  | cons name names inductionHypothesis =>
      rw [List.mem_cons, not_or] at absent
      rw [renameRun_cons, if_neg absent.1]
      exact inductionHypothesis absent.2

/-- Only a name that lacks nothing but the suffix becomes another one. -/
theorem renameRun_ne
    {suffix name run : Text}
    {names : List Text}
    (apart : ∀ other ∈ names, other ++ suffix ≠ name)
    (different : run ≠ name) :
    renameRun suffix names run ≠ name := by
  induction names generalizing run with
  | nil => exact different
  | cons other names inductionHypothesis =>
      rw [renameRun_cons]
      apply inductionHypothesis
      · exact fun later member => apart later (List.mem_cons_of_mem other member)
      · split
        case isTrue same =>
          rw [same]
          exact apart other List.mem_cons_self
        case isFalse => exact different

/-! ## Names in the order in which they are first seen -/

section FirstSeen

variable
  {name : Text}
  {early : List Text}
  (new : name ∉ early)
include new

/-- The distinct names behind a new one are new as well and differ from it. -/
theorem exists_eraseDups_eq (late : List Text) :
    ∃ rest, (early ++ name :: late).eraseDups = early.eraseDups ++ name :: rest ∧
      ∀ other, other ∈ rest ↔ other ∈ late ∧ other ∉ early ∧ other ≠ name := by
  refine ⟨((late.filter fun other => !early.elem other).filter
    fun other => !other == name).eraseDups, ?_, ?_⟩
  · rw [List.eraseDups_append, List.removeAll, List.filter_cons]
    simp [new, List.eraseDups_cons]
  · intro other
    simp only [List.mem_eraseDups, List.mem_filter, Bool.not_eq_true', List.elem_eq_mem,
      decide_eq_false_iff_not, beq_eq_false_iff_ne, ne_eq, and_assoc]

theorem idxOf_lt_idxOf_iff
    (late : List Text)
    (other : Text) :
    (early ++ name :: late).idxOf name < (early ++ name :: late).idxOf other ↔
      other ∉ early ∧ other ≠ name := by
  have here : (early ++ name :: late).idxOf name = early.length := by
    rw [List.idxOf_append_of_notMem new, List.idxOf_cons_self, Nat.add_zero]
  rw [here]
  by_cases known : other ∈ early
  · have before := List.idxOf_lt_length_of_mem known
    rw [List.idxOf_append_of_mem known]
    simp only [known, not_true, false_and, iff_false]
    omega
  · rw [List.idxOf_append_of_notMem known]
    by_cases same : other = name
    · subst same
      simp
    · have behind : (name :: late).idxOf other = late.idxOf other + 1 :=
        List.idxOf_cons_ne late (Ne.symm same)
      rw [behind]
      simp only [known, same, not_false_eq_true, ne_eq, and_self, iff_true]
      omega

end FirstSeen

section Names

variable
  {suffix name : Text}
  {names : List Text}

/-- No run becomes a name that is seen, unless one that is first seen later does. -/
theorem renameRun_eraseDups_ne
    (suffixNonempty : suffix ≠ [])
    (seen : name ∈ names)
    (apart : ∀ other ∈ names, other ++ suffix = name →
      names.idxOf other < names.idxOf name)
    (run : Text) :
    renameRun suffix names.eraseDups run ≠ name := by
  obtain ⟨early, late, rfl, new⟩ := List.eq_append_cons_of_mem seen
  obtain ⟨rest, distinct, mem_rest⟩ := exists_eraseDups_eq new late
  rw [distinct, renameRun_append, renameRun_cons]
  apply renameRun_ne
  · intro other member becomes
    obtain ⟨isLate, order⟩ := (mem_rest other).mp member
    have later := (idxOf_lt_idxOf_iff new late other).mpr order
    have earlier := apart other (by simp [isLate]) becomes
    omega
  · split
    case isTrue same => simpa [same] using suffixNonempty
    case isFalse different => exact different

/-- A name that is first seen later becomes the one that equals it with the suffix. -/
theorem renameRun_eraseDups_of_later
    {other : Text}
    (seen : name ∈ names)
    (otherSeen : other ∈ names)
    (becomes : other ++ suffix = name)
    (later : names.idxOf name < names.idxOf other) :
    renameRun suffix names.eraseDups other = name := by
  obtain ⟨early, late, rfl, new⟩ := List.eq_append_cons_of_mem seen
  obtain ⟨rest, distinct, mem_rest⟩ := exists_eraseDups_eq new late
  obtain ⟨otherNew, different⟩ := (idxOf_lt_idxOf_iff new late other).mp later
  have isLate : other ∈ late := by simpa [otherNew, different] using otherSeen
  obtain ⟨between, behind, rfl, isFirst⟩ :=
    List.eq_append_cons_of_mem ((mem_rest other).mpr ⟨isLate, otherNew, different⟩)
  have nameGone : name ∉ behind := by
    intro member
    exact ((mem_rest name).mp (by simp [member])).2.2 rfl
  have untouched : renameRun suffix early.eraseDups other = other :=
    renameRun_of_not_mem (mt List.mem_eraseDups.mp otherNew) suffix
  rw [distinct, renameRun_append, untouched, renameRun_cons, if_neg different,
    renameRun_append, renameRun_of_not_mem isFirst, renameRun_cons, if_pos rfl, becomes]
  exact renameRun_of_not_mem nameGone suffix

end Names

/-! ## Declared names in bindings -/

section Bindings

variable
  {suffix : Text}
  (suffixInside : suffix.all Symbol.isIdentifier = true)
include suffixInside

theorem tokens_rename_typeNames (schema artifact : Text) :
    tokens (rename .wholeIdentifier suffix (typeNames schema) artifact) =
      (tokens artifact).map
        (Token.mapRun (renameRun suffix (typeNames schema).eraseDups)) := by
  apply tokens_rename_of_ne_nil suffixInside
  · exact fun name member => Schema.ne_nil_of_mem_typeNames member
  · exact fun name member => Schema.isIdentifier_of_mem_typeNames member

/-- Bindings that are one identifier are renamed as one run. -/
theorem tokens_rename_run
    {run : Text}
    (nonempty : run ≠ [])
    (inside : run.all Symbol.isIdentifier = true)
    (schema : Text) :
    tokens (rename .wholeIdentifier suffix (typeNames schema) run) =
      [.identifier (renameRun suffix (typeNames schema).eraseDups run)] := by
  rw [tokens_rename_typeNames suffixInside, Text.tokens_of_all nonempty inside]
  rfl

variable {schema name : Text}

/-- A name that is not found stays where it stands alone. -/
theorem mem_tokens_of_not_found
    (declares : Declares schema name)
    (absent : name ∉ typeNames schema) :
    .identifier name ∈
      tokens (rename .wholeIdentifier suffix (typeNames schema) name) := by
  rw [tokens_rename_run suffixInside declares.ne_nil declares.isIdentifier,
    renameRun_of_not_mem (mt List.mem_eraseDups.mp absent)]
  exact List.mem_singleton_self _

/-- A name comes back where one that is first found later gets its suffix. -/
theorem mem_tokens_of_later
    {other : Text}
    (found : name ∈ typeNames schema)
    (otherFound : other ∈ typeNames schema)
    (becomes : other ++ suffix = name)
    (later : (typeNames schema).idxOf name < (typeNames schema).idxOf other) :
    .identifier name ∈
      tokens (rename .wholeIdentifier suffix (typeNames schema) other) := by
  rw [tokens_rename_run suffixInside (Schema.ne_nil_of_mem_typeNames otherFound)
      (Schema.isIdentifier_of_mem_typeNames otherFound),
    renameRun_eraseDups_of_later found otherFound becomes later]
  exact List.mem_singleton_self _

/-- Apart from that, a name that is found is gone from all bindings. -/
theorem not_mem_tokens_of_found
    (suffixNonempty : suffix ≠ [])
    (found : name ∈ typeNames schema)
    (apart : ∀ other ∈ typeNames schema, other ++ suffix = name →
      (typeNames schema).idxOf other < (typeNames schema).idxOf name)
    (artifact : Text) :
    .identifier name ∉
      tokens (rename .wholeIdentifier suffix (typeNames schema) artifact) := by
  rw [tokens_rename_typeNames suffixInside, List.mem_map]
  rintro ⟨token, _, renamed⟩
  cases token with
  | other symbol => simp [Token.mapRun] at renamed
  | identifier run =>
      injection renamed with run_eq
      exact renameRun_eraseDups_ne suffixNonempty found apart run run_eq

end Bindings

/-- A name that the search does not find in full stays in bindings. -/
theorem declared_identifier_stays :
    let schema := Text.ofString "struct Point3D {}"
    let artifact := Text.ofString "type Point3D struct"
    let suffix := Text.ofString "Capn"
    let name := Text.ofString "Point3D"
    suffix ≠ [] ∧ suffix.all Symbol.isIdentifier = true ∧ Declares schema name ∧
      .identifier name ∈
        tokens (rename .wholeIdentifier suffix (typeNames schema) artifact) := by
  intro schema artifact suffix name
  refine ⟨by decide +kernel, by decide +kernel, ⟨[], Text.ofString "Point3D {}", ?_⟩, ?_⟩
  · decide +kernel
  · decide +kernel

/--
No bindings keep a declared name, if and only if the search finds the name and
every name that equals it but for the suffix is first found before it.  The search
finds names of letters only that no name before them may run into.
-/
theorem forall_not_mem_tokens_iff
    (schema suffix name : Text)
    (suffixNonempty : suffix ≠ [])
    (suffixInside : suffix.all Symbol.isIdentifier = true)
    (declares : Declares schema name) :
    ((∀ artifact, .identifier name ∉
        tokens (rename .wholeIdentifier suffix (typeNames schema) artifact)) ↔
      name ∈ typeNames schema ∧
        ∀ other ∈ typeNames schema, other ++ suffix = name →
          (typeNames schema).idxOf other < (typeNames schema).idxOf name) ∧
      (name.all Symbol.isLetter = true →
        ∀ front, DeclaresBehind front schema name → ¬EndsInName front →
          name ∈ typeNames schema) := by
  refine ⟨⟨fun gone => ?_, fun ⟨found, apart⟩ => ?_⟩, fun letters front behind isApart => ?_⟩
  · have found : name ∈ typeNames schema := by
      apply Decidable.byContradiction
      intro absent
      exact gone name (mem_tokens_of_not_found suffixInside declares absent)
    refine ⟨found, fun other otherFound becomes => ?_⟩
    apply Decidable.byContradiction
    intro notEarlier
    have different : (typeNames schema).idxOf name ≠ (typeNames schema).idxOf other := by
      intro same
      rw [List.idxOf_inj found] at same
      rw [same] at becomes
      exact suffixNonempty (by simpa using becomes)
    have later :
        (typeNames schema).idxOf name < (typeNames schema).idxOf other := by omega
    exact gone other (mem_tokens_of_later suffixInside found otherFound becomes later)
  · exact not_mem_tokens_of_found suffixInside suffixNonempty found apart
  · exact Schema.mem_typeNames_of_declaresBehind behind isApart letters

/-- A name that another one becomes with its suffix is gone when it is found last. -/
theorem forall_not_mem_tokens_of_last :
    let schema := Text.ofString "struct User {}\nstruct UserCapn {}\nstruct Point3D {}"
    let suffix := Text.ofString "Capn"
    let name := Text.ofString "UserCapn"
    suffix ≠ [] ∧ suffix.all Symbol.isIdentifier = true ∧ Declares schema name ∧
      ∀ artifact, .identifier name ∉
        tokens (rename .wholeIdentifier suffix (typeNames schema) artifact) := by
  intro schema suffix name
  have suffixNonempty : suffix ≠ [] := by decide +kernel
  have suffixInside : suffix.all Symbol.isIdentifier = true := by decide +kernel
  have declares : Declares schema name :=
    ⟨Text.ofString "struct User {}\n", Text.ofString "UserCapn {}\nstruct Point3D {}",
      by decide +kernel⟩
  refine ⟨suffixNonempty, suffixInside, declares, ?_⟩
  apply (forall_not_mem_tokens_iff schema suffix name suffixNonempty suffixInside
    declares).1.mpr
  decide +kernel

end Rename
end SchemaCodegen
