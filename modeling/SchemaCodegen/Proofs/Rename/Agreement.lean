import Mathlib.Data.List.Nodup
import SchemaCodegen.Proofs.Rename.Order
import SchemaCodegen.Proofs.Text.Cutting

/-!
# Where both ways of renaming agree

Names are found wherever they stand or only as whole identifiers.  Both give the same
text when the names stand in it as whole identifiers only, and no name with the suffix
holds another name.  Then a pass makes no new places where a later name stands, so what
is true of the text at first is true of it before every pass.
-/

namespace SchemaCodegen
namespace Rename

open Text (Token Separated spell tokens)

/-- No identifier symbol touches what stands between two texts. -/
structure StandsAlone (front back : Text) : Prop where
  /-- The text before ends outside of identifiers. -/
  before : ∀ symbol ∈ front.getLast?, symbol.isIdentifier = false
  /-- The text behind starts outside of identifiers. -/
  behind : ∀ symbol ∈ back.head?, symbol.isIdentifier = false

instance (front back : Text) : Decidable (StandsAlone front back) :=
  decidable_of_iff
    ((∀ symbol ∈ front.getLast?, symbol.isIdentifier = false) ∧
      ∀ symbol ∈ back.head?, symbol.isIdentifier = false)
    ⟨fun ⟨before, behind⟩ => ⟨before, behind⟩, fun ⟨before, behind⟩ => ⟨before, behind⟩⟩

/-- Every occurrence of a name in a text is a whole identifier. -/
def OccursWhole (name text : Text) : Prop :=
  ∀ front back, text = front ++ name ++ back → StandsAlone front back

theorem occursWhole_iff
    {name text : Text} :
    (∀ start < text.length + 1,
      text = text.take start ++ name ++ text.drop (start + name.length) →
        StandsAlone (text.take start) (text.drop (start + name.length))) ↔
      OccursWhole name text := by
  constructor
  · rintro alone front back rfl
    have early : front.length < (front ++ name ++ back).length + 1 := by
      simp only [List.length_append]
      omega
    simpa using alone front.length early
  · exact fun whole start _ occurs => whole _ _ occurs

instance (name text : Text) : Decidable (OccursWhole name text) :=
  decidable_of_iff _ occursWhole_iff

/-- A name stands in no run but the one that equals it. -/
def OnlyWhole (name : Text) (parts : List Token) : Prop :=
  ∀ run, .identifier run ∈ parts → name <:+: run → run = name

theorem OccursWhole.onlyWhole
    {name text : Text}
    (alone : OccursWhole name text) :
    OnlyWhole name (tokens text) := by
  rintro run member ⟨early, late, rfl⟩
  obtain ⟨before, behind, parts_eq⟩ := List.append_of_mem member
  have inside := (Text.separated_tokens text).all_of_mem member
  have text_eq : text = (spell before ++ early) ++ name ++ (late ++ spell behind) := by
    rw [← Text.spell_tokens text, parts_eq, Text.spell_append, Text.spell_identifier]
    simp only [List.append_assoc]
  have standsAlone := alone _ _ text_eq
  -- A symbol of the run beside the name would be an identifier symbol that touches it.
  have nothingBefore : early = [] := by
    rcases List.eq_nil_or_concat early with none | ⟨others, last, rfl⟩
    · exact none
    · have outside := standsAlone.before last (by simp)
      simp [outside] at inside
  have nothingBehind : late = [] := by
    cases late with
    | nil => rfl
    | cons next others =>
        have outside := standsAlone.behind next (by simp)
        simp [outside] at inside
  rw [nothingBefore, nothingBehind, List.nil_append, List.append_nil]

/-! ## One name -/

section Pass

variable
  {name : Text}
  (nonempty : name ≠ [])
  (inside : name.all Symbol.isIdentifier = true)
include nonempty inside

theorem not_isPrefix_of_not_startsInside
    {text : Text}
    (outside : startsInside text = false) :
    ¬name <+: text := by
  rintro ⟨rest, rfl⟩
  rw [startsInside_append_of_all nonempty inside] at outside
  contradiction

/-- A run that holds no name is kept, and no name starts in it. -/
theorem replaceFrom_run
    (replacement : Text)
    {run rest : Text}
    (outside : startsInside rest = false)
    (whole : name <:+: run → run = name) :
    Occurrence.replaceFrom name replacement 0 (run ++ rest) =
      (if run = name then replacement else run) ++
        Occurrence.replaceFrom name replacement 0 rest := by
  by_cases same : run = name
  · rw [if_pos same, same, Occurrence.replaceFrom_pattern replacement nonempty]
  · rw [if_neg same]
    apply Occurrence.replaceFrom_append_of_not_starts
    intro tail isTail _ starts
    -- A name that starts in the run ends in it, so the run would be the name.
    have within := isPrefix_of_isPrefix_append inside outside starts
    exact same (whole (within.isInfix.trans isTail.isInfix))

theorem replaceFrom_spell
    (replacement : Text)
    {parts : List Token}
    (separated : Separated parts)
    (whole : OnlyWhole name parts) :
    Occurrence.replaceFrom name replacement 0 (spell parts) =
      spell (parts.map (Token.mapRun fun run => if run = name then replacement else run)) := by
  induction separated with
  | nil => rfl
  | @other symbol rest outside separated inductionHypothesis =>
      have startsOutside : startsInside (symbol :: spell rest) = false := by
        simp [startsInside, outside]
      have absent := not_isPrefix_of_not_startsInside nonempty inside startsOutside
      have later := inductionHypothesis fun run member =>
        whole run (List.mem_cons_of_mem _ member)
      rw [Text.spell_other, Occurrence.replaceFrom_cons_of_not_starts replacement absent, later]
      rfl
  | @identifier run rest _ _ apart separated inductionHypothesis =>
      have outside := startsInside_spell separated apart
      have later := inductionHypothesis fun other member =>
        whole other (List.mem_cons_of_mem _ member)
      rw [Text.spell_identifier,
        replaceFrom_run nonempty inside replacement outside (whole run List.mem_cons_self),
        later]
      rfl

/-- Where a name stands as a whole identifier only, it makes no difference how it is found. -/
theorem renameOne_anywhere_eq
    (suffix : Text)
    {text : Text}
    (whole : OnlyWhole name (tokens text)) :
    renameOne .anywhere suffix text name = renameOne .wholeIdentifier suffix text name := by
  have separated := Text.separated_tokens text
  have anywhere := replaceFrom_spell nonempty inside (name ++ suffix) separated whole
  have wholeIdentifiers := replaceIdentifiers_spell nonempty inside (name ++ suffix) separated
  rw [Text.spell_tokens] at anywhere wholeIdentifiers
  rw [renameOne, renameOne, Occurrence.replace_of_ne_nil _ nonempty, anywhere,
    wholeIdentifiers]

/-- A pass makes no place for a name that does not stand in the renamed one. -/
theorem OnlyWhole.renameOne
    {suffix other text : Text}
    (suffixInside : suffix.all Symbol.isIdentifier = true)
    (apart : ¬other <:+: name ++ suffix)
    (whole : OnlyWhole other (tokens text)) :
    OnlyWhole other (tokens (renameOne .wholeIdentifier suffix text name)) := by
  intro run member occurs
  rw [tokens_renameOne suffixInside nonempty inside, List.mem_map] at member
  obtain ⟨token, known, renamed⟩ := member
  cases token with
  | other symbol => simp [Token.mapRun] at renamed
  | identifier before =>
      injection renamed with run_eq
      beta_reduce at run_eq
      by_cases same : before = name
      · rw [if_pos same, same] at run_eq
        exact absurd (run_eq ▸ occurs) apart
      · rw [if_neg same] at run_eq
        rw [← run_eq] at occurs ⊢
        exact whole before known occurs

end Pass

/-! ## Several names -/

/-- The passes agree one after the other, because each one keeps the later names whole. -/
theorem foldl_renameOne_anywhere_eq
    {suffix : Text}
    (suffixInside : suffix.all Symbol.isIdentifier = true)
    {names : List Text}
    (nonempty : ∀ name ∈ names, name ≠ [])
    (inside : ∀ name ∈ names, name.all Symbol.isIdentifier = true)
    (apart : names.Pairwise fun name other => ¬other <:+: name ++ suffix)
    {text : Text}
    (whole : ∀ name ∈ names, OnlyWhole name (tokens text)) :
    names.foldl (renameOne .anywhere suffix) text =
      names.foldl (renameOne .wholeIdentifier suffix) text := by
  induction names generalizing text with
  | nil => rfl
  | cons name names inductionHypothesis =>
      rw [List.forall_mem_cons] at nonempty inside whole
      rw [List.pairwise_cons] at apart
      rw [List.foldl_cons, List.foldl_cons,
        renameOne_anywhere_eq nonempty.1 inside.1 suffix whole.1]
      apply inductionHypothesis nonempty.2 inside.2 apart.2
      intro other member
      exact (whole.2 other member).renameOne nonempty.1 inside.1 suffixInside
        (apart.1 other member)

theorem renameRun_of_empty (names : List Text) (run : Text) : renameRun [] names run = run := by
  induction names with
  | nil => rfl
  | cons name names inductionHypothesis =>
      rw [renameRun_cons, List.append_nil, ite_self, inductionHypothesis]

section Names

variable
  {names : List Text}
  {suffix : Text}
  (apart : ∀ name ∈ names, ∀ other ∈ names, name ≠ other → ¬name <:+: other ++ suffix)
include apart

theorem pairwise_distinctNames :
    (distinctNames names).Pairwise fun name other => ¬other <:+: name ++ suffix := by
  apply (nodup_distinctNames names).pairwise_of_forall_ne
  intro name member other otherMember different
  exact apart other (mem_of_mem_distinctNames otherMember) name
    (mem_of_mem_distinctNames member) different.symm

theorem unchained_of_apart (suffixNonempty : suffix ≠ []) : Unchained names suffix := by
  rintro name member other otherMember rfl
  apply apart (other ++ suffix) member other otherMember
  · simpa using suffixNonempty
  · exact List.infix_refl _

end Names

/--
If every occurrence of a listed name is a whole identifier, and none stands in another
listed name with the suffix, then it makes no difference how names are found: every listed
identifier gets the suffix once, and nothing else changes.
-/
theorem rename_anywhere_eq_rename_wholeIdentifier
    (names : List Text)
    (suffix text : Text)
    (suffixInside : suffix.all Symbol.isIdentifier = true)
    (namesNonempty : ∀ name ∈ names, name ≠ [])
    (namesInside : ∀ name ∈ names, name.all Symbol.isIdentifier = true)
    (apart : ∀ name ∈ names, ∀ other ∈ names, name ≠ other → ¬name <:+: other ++ suffix)
    (alone : ∀ name ∈ names, OccursWhole name text) :
    rename .anywhere suffix names text = rename .wholeIdentifier suffix names text ∧
      tokens (rename .wholeIdentifier suffix names text) =
        (tokens text).map
          (Token.mapRun fun run => if run ∈ names then run ++ suffix else run) := by
  constructor
  · apply foldl_renameOne_anywhere_eq suffixInside
    · exact fun name member => ne_nil_of_mem_distinctNames member
    · exact fun name member => namesInside name (mem_of_mem_distinctNames member)
    · exact pairwise_distinctNames apart
    · exact fun name member => (alone name (mem_of_mem_distinctNames member)).onlyWhole
  · by_cases none : suffix = []
    · subst none
      rw [tokens_rename_of_ne_nil suffixInside namesNonempty namesInside]
      congr 2
      funext run
      rw [renameRun_of_empty, List.append_nil, ite_self]
    · exact tokens_rename_of_unchained suffixInside namesNonempty namesInside
        (unchained_of_apart apart none) text

/-- Both ways agree on a text in which the names touch no identifier symbol. -/
theorem rename_anywhere_eq_rename_wholeIdentifier_user :
    let names := ["User", "Group", "User"].map Text.ofString
    let suffix := Text.ofString "Capn"
    let text := Text.ofString "type User struct { Group; user_ []User }é"
    suffix.all Symbol.isIdentifier = true ∧
      (∀ name ∈ names, name ≠ []) ∧
      (∀ name ∈ names, name.all Symbol.isIdentifier = true) ∧
      (∀ name ∈ names, ∀ other ∈ names, name ≠ other → ¬name <:+: other ++ suffix) ∧
      (∀ name ∈ names, OccursWhole name text) ∧
      rename .anywhere suffix names text = rename .wholeIdentifier suffix names text := by
  intro names suffix text
  have suffixInside : suffix.all Symbol.isIdentifier = true := by decide +kernel
  have namesNonempty : ∀ name ∈ names, name ≠ [] := by decide +kernel
  have namesInside : ∀ name ∈ names, name.all Symbol.isIdentifier = true := by
    decide +kernel
  have apart : ∀ name ∈ names, ∀ other ∈ names, name ≠ other →
      ¬name <:+: other ++ suffix := by
    decide +kernel
  have alone : ∀ name ∈ names, OccursWhole name text := by decide +kernel
  exact ⟨suffixInside, namesNonempty, namesInside, apart, alone,
    (rename_anywhere_eq_rename_wholeIdentifier names suffix text suffixInside namesNonempty
      namesInside apart alone).1⟩

end Rename
end SchemaCodegen
