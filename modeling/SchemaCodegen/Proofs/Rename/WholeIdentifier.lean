import SchemaCodegen.Proofs.Text.Token
import SchemaCodegen.Rename

/-!
# Renaming whole identifiers

A pass for one name changes the runs that equal the name and nothing else.  It
leaves runs behind, so the passes for several names, each over the text that the
one before has left, change every run on its own.
-/

namespace SchemaCodegen
namespace Rename

open Text (Token Separated StartsWithRun spell tokens)

/-! ## One name -/

section Pass

variable
  {name : Text}
  (nonempty : name ≠ [])
  (inside : name.all Symbol.isIdentifier = true)
  (replacement : Text)

theorem startsInside_append_of_all
    {run : Text}
    (runNonempty : run ≠ [])
    (runInside : run.all Symbol.isIdentifier = true)
    (rest : Text) :
    startsInside (run ++ rest) = true := by
  cases run with
  | nil => contradiction
  | cons symbol others =>
      simp only [List.all_cons, Bool.and_eq_true] at runInside
      simp [startsInside, runInside.1]

theorem startsInside_spell
    {parts : List Token}
    (separated : Separated parts)
    (apart : ¬StartsWithRun parts) :
    startsInside (spell parts) = false := by
  cases separated with
  | nil => rfl
  | other outside separated => simp [startsInside, outside]
  | @identifier run rest _ _ _ _ => exact absurd ⟨run, rest, rfl⟩ apart

include nonempty inside in
/-- No name stands where the text is outside of identifiers. -/
theorem isIdentifierAt_of_not_startsInside
    {text : Text}
    (outside : startsInside text = false)
    (before : Bool) :
    isIdentifierAt name before text = false := by
  have noPrefix : name.isPrefixOf text = false := by
    rw [Bool.eq_false_iff, Ne, List.isPrefixOf_iff_prefix]
    rintro ⟨rest, rfl⟩
    rw [startsInside_append_of_all nonempty inside] at outside
    contradiction
  simp [isIdentifierAt, noPrefix]

include inside in
/-- A name that starts in a run does not reach beyond it. -/
theorem isPrefix_of_isPrefix_append
    {run rest : Text}
    (outside : startsInside rest = false)
    (stands : name <+: run ++ rest) :
    name <+: run := by
  rcases List.prefix_or_prefix_of_prefix stands (List.prefix_append run rest) with
    within | ⟨others, rfl⟩
  · exact within
  · -- A symbol of the name behind the run would continue the run.
    by_cases none : others = []
    · simp [none]
    · obtain ⟨last, rfl⟩ := (List.prefix_append_right_inj run).mp stands
      rw [List.all_append, Bool.and_eq_true] at inside
      rw [startsInside_append_of_all none inside.2] at outside
      contradiction

include inside in
/-- At the head of a run stands the name that equals the run, and no other. -/
theorem isIdentifierAt_run_iff
    {run rest : Text}
    (runInside : run.all Symbol.isIdentifier = true)
    (outside : startsInside rest = false) :
    isIdentifierAt name false (run ++ rest) = true ↔ run = name := by
  constructor
  · intro found
    simp only [isIdentifierAt, Bool.not_false, Bool.true_and, Bool.and_eq_true,
      List.isPrefixOf_iff_prefix, Bool.not_eq_true'] at found
    obtain ⟨stands, ends⟩ := found
    obtain ⟨others, rfl⟩ := isPrefix_of_isPrefix_append inside outside stands
    -- A symbol of the run behind the name would continue the identifier.
    rw [List.append_assoc, List.drop_left] at ends
    by_cases none : others = []
    · rw [none, List.append_nil]
    · rw [List.all_append, Bool.and_eq_true] at runInside
      rw [startsInside_append_of_all none runInside.2] at ends
      contradiction
  · rintro rfl
    have stands : run.isPrefixOf (run ++ rest) = true := by
      rw [List.isPrefixOf_iff_prefix]
      exact List.prefix_append run rest
    simp [isIdentifierAt, stands, outside]

/-- Inside of an identifier nothing is replaced. -/
theorem replaceIdentifiersFrom_inside
    {run : Text}
    (runInside : run.all Symbol.isIdentifier = true)
    (rest : Text) :
    replaceIdentifiersFrom name replacement 0 true (run ++ rest) =
      run ++ replaceIdentifiersFrom name replacement 0 true rest := by
  induction run with
  | nil => rfl
  | cons symbol others inductionHypothesis =>
      simp only [List.all_cons, Bool.and_eq_true] at runInside
      have none : isIdentifierAt name true (symbol :: (others ++ rest)) = false := by
        simp [isIdentifierAt]
      simp only [List.cons_append, replaceIdentifiersFrom, none, Bool.false_eq_true, if_false,
        runInside.1, inductionHypothesis runInside.2]

theorem replaceIdentifiersFrom_consumed
    {run : Text}
    (runInside : run.all Symbol.isIdentifier = true)
    (rest : Text) :
    replaceIdentifiersFrom name replacement run.length true (run ++ rest) =
      replaceIdentifiersFrom name replacement 0 true rest := by
  induction run with
  | nil => rfl
  | cons symbol others inductionHypothesis =>
      simp only [List.all_cons, Bool.and_eq_true] at runInside
      simp only [List.cons_append, List.length_cons, replaceIdentifiersFrom, runInside.1,
        inductionHypothesis runInside.2]

include nonempty inside in
/-- Behind a run it makes no difference that one has just ended. -/
theorem replaceIdentifiersFrom_of_not_startsInside
    {text : Text}
    (outside : startsInside text = false)
    (before : Bool) :
    replaceIdentifiersFrom name replacement 0 before text =
      replaceIdentifiersFrom name replacement 0 false text := by
  cases text with
  | nil => cases before <;> rfl
  | cons symbol rest =>
      simp only [replaceIdentifiersFrom,
        isIdentifierAt_of_not_startsInside nonempty inside outside]

include nonempty inside in
theorem replaceIdentifiersFrom_run
    {run rest : Text}
    (runNonempty : run ≠ [])
    (runInside : run.all Symbol.isIdentifier = true)
    (outside : startsInside rest = false) :
    replaceIdentifiersFrom name replacement 0 false (run ++ rest) =
      (if run = name then replacement else run) ++
        replaceIdentifiersFrom name replacement 0 false rest := by
  have found := isIdentifierAt_run_iff inside runInside outside
  have outsideAgain := replaceIdentifiersFrom_of_not_startsInside nonempty inside replacement
    outside true
  cases run with
  | nil => contradiction
  | cons symbol others =>
      simp only [List.all_cons, Bool.and_eq_true] at runInside
      rw [List.cons_append] at found ⊢
      rw [replaceIdentifiersFrom, runInside.1]
      by_cases same : symbol :: others = name
      · have length_eq : name.length - 1 = others.length := by
          simp [← same]
        rw [if_pos (found.mpr same), if_pos same, length_eq,
          replaceIdentifiersFrom_consumed replacement runInside.2, outsideAgain]
      · rw [if_neg (mt found.mp same), if_neg same,
          replaceIdentifiersFrom_inside replacement runInside.2, outsideAgain]
        rfl

include nonempty inside in
theorem replaceIdentifiers_spell
    {parts : List Token}
    (separated : Separated parts) :
    replaceIdentifiers name replacement (spell parts) =
      spell (parts.map (Token.mapRun fun run => if run = name then replacement else run)) := by
  unfold replaceIdentifiers
  induction separated with
  | nil => rfl
  | @other symbol rest outside separated inductionHypothesis =>
      have startsOutside : startsInside (symbol :: spell rest) = false := by
        simp [startsInside, outside]
      have none := isIdentifierAt_of_not_startsInside nonempty inside startsOutside false
      rw [Text.spell_other, replaceIdentifiersFrom, none, outside, inductionHypothesis]
      rfl
  | @identifier run rest runNonempty runInside apart separated inductionHypothesis =>
      have outside := startsInside_spell separated apart
      rw [Text.spell_identifier,
        replaceIdentifiersFrom_run nonempty inside replacement runNonempty runInside outside,
        inductionHypothesis]
      rfl

include nonempty inside in
variable {replacement} in
/-- A pass replaces the runs that equal the name, and they stay runs. -/
theorem tokens_replaceIdentifiers
    (replacementNonempty : replacement ≠ [])
    (replacementInside : replacement.all Symbol.isIdentifier = true)
    (text : Text) :
    tokens (replaceIdentifiers name replacement text) =
      (tokens text).map
        (Token.mapRun fun run => if run = name then replacement else run) := by
  have separated := Text.separated_tokens text
  have replaced := replaceIdentifiers_spell nonempty inside replacement separated
  rw [Text.spell_tokens] at replaced
  rw [replaced]
  apply Text.tokens_spell
  apply separated.map
  intro run runNonempty runInside
  split
  · exact ⟨replacementNonempty, replacementInside⟩
  · exact ⟨runNonempty, runInside⟩

end Pass

/-! ## Several names -/

/-- What becomes of a run when each name in turn gets its suffix. -/
def renameRun (suffix : Text) (names : List Text) (run : Text) : Text :=
  names.foldl (fun run name => if run = name then run ++ suffix else run) run

@[simp] theorem renameRun_nil (suffix run : Text) : renameRun suffix [] run = run := rfl

@[simp] theorem renameRun_cons
    (suffix name : Text)
    (names : List Text)
    (run : Text) :
    renameRun suffix (name :: names) run =
      renameRun suffix names (if run = name then run ++ suffix else run) := rfl

theorem foldl_firstSeen
    (seen names : List Text) :
    names.foldl (fun seen name => if name ∈ seen then seen else seen ++ [name]) seen =
      seen ++ (names.filter (· ∉ seen)).eraseDups := by
  induction names generalizing seen with
  | nil => simp
  | cons name names inductionHypothesis =>
      rw [List.foldl_cons, inductionHypothesis]
      by_cases old : name ∈ seen
      · simp [old]
      · simp only [old, if_false, List.append_assoc, List.filter_cons, List.eraseDups_cons,
          not_false_eq_true, decide_true, if_true, List.filter_filter, List.singleton_append]
        congr 3
        apply List.filter_congr
        intro other _
        by_cases same : other = name <;> simp [same]

theorem nodup_distinctNames (names : List Text) : (distinctNames names).Nodup := by
  have keeps : ∀ seen : List Text, seen.Nodup →
      (names.foldl (fun seen name => if name ∈ seen then seen else seen ++ [name])
        seen).Nodup := by
    induction names with
    | nil => exact fun seen nodup => nodup
    | cons name names inductionHypothesis =>
        intro seen nodup
        rw [List.foldl_cons]
        by_cases known : name ∈ seen
        · rw [if_pos known]
          exact inductionHypothesis seen nodup
        · have longer : (seen ++ [name]).Nodup := by
            rw [List.nodup_append]
            refine ⟨nodup, by simp, fun other member last isLast same => ?_⟩
            rw [same, List.mem_singleton.mp isLast] at member
            exact known member
          rw [if_neg known]
          exact inductionHypothesis _ longer
  exact (keeps [] List.nodup_nil).filter _

/-- The names that are renamed are the nonempty ones, without repetitions. -/
theorem distinctNames_eq (names : List Text) :
    distinctNames names = names.eraseDups.filter (· ≠ []) := by
  have unseen : names.filter (· ∉ ([] : List Text)) = names := by
    rw [List.filter_eq_self]
    simp
  rw [distinctNames, foldl_firstSeen, unseen, List.nil_append]

theorem ne_nil_of_mem_distinctNames
    {names : List Text}
    {name : Text}
    (member : name ∈ distinctNames names) :
    name ≠ [] := by
  simpa using (List.mem_filter.mp member).2

theorem mem_of_mem_distinctNames
    {names : List Text}
    {name : Text}
    (member : name ∈ distinctNames names) :
    name ∈ names := by
  rw [distinctNames_eq] at member
  exact List.mem_eraseDups.mp (List.mem_filter.mp member).1

/-- A pass adds the suffix to the runs that equal the name. -/
theorem tokens_renameOne
    {suffix name : Text}
    (suffixInside : suffix.all Symbol.isIdentifier = true)
    (nonempty : name ≠ [])
    (inside : name.all Symbol.isIdentifier = true)
    (text : Text) :
    tokens (renameOne .wholeIdentifier suffix text name) =
      (tokens text).map
        (Token.mapRun fun run => if run = name then run ++ suffix else run) := by
  have renamedInside : (name ++ suffix).all Symbol.isIdentifier = true := by
    rw [List.all_append, inside, suffixInside]
    rfl
  rw [renameOne, tokens_replaceIdentifiers nonempty inside (by simp [nonempty]) renamedInside]
  congr 2
  funext run
  by_cases same : run = name <;> simp [same]

/-- Every pass keeps the other tokens and renames each run on its own. -/
theorem tokens_foldl_renameOne
    {suffix : Text}
    (suffixInside : suffix.all Symbol.isIdentifier = true)
    {names : List Text}
    (nonempty : ∀ name ∈ names, name ≠ [])
    (inside : ∀ name ∈ names, name.all Symbol.isIdentifier = true)
    (text : Text) :
    tokens (names.foldl (renameOne .wholeIdentifier suffix) text) =
      (tokens text).map (Token.mapRun (renameRun suffix names)) := by
  induction names generalizing text with
  | nil =>
      rw [List.foldl_nil, List.map_congr_left (g := id)]
      · simp
      · exact fun token _ => token.mapRun_id
  | cons name names inductionHypothesis =>
      rw [List.forall_mem_cons] at nonempty inside
      rw [List.foldl_cons, inductionHypothesis nonempty.2 inside.2,
        tokens_renameOne suffixInside nonempty.1 inside.1, List.map_map]
      apply List.map_congr_left
      intro token _
      rw [Function.comp_apply, Token.mapRun_mapRun]
      rfl

/-- The runs of a renamed text are the renamed runs of the text. -/
theorem tokens_rename
    {suffix : Text}
    {names : List Text}
    (suffixInside : suffix.all Symbol.isIdentifier = true)
    (namesInside : ∀ name ∈ names, name.all Symbol.isIdentifier = true)
    (text : Text) :
    tokens (rename .wholeIdentifier suffix names text) =
      (tokens text).map
        (Token.mapRun (renameRun suffix (names.eraseDups.filter (· ≠ [])))) := by
  rw [← distinctNames_eq]
  apply tokens_foldl_renameOne suffixInside
  · exact fun name member => ne_nil_of_mem_distinctNames member
  · exact fun name member => namesInside name (mem_of_mem_distinctNames member)

/-- Names that are not empty are all renamed. -/
theorem tokens_rename_of_ne_nil
    {suffix : Text}
    {names : List Text}
    (suffixInside : suffix.all Symbol.isIdentifier = true)
    (namesNonempty : ∀ name ∈ names, name ≠ [])
    (namesInside : ∀ name ∈ names, name.all Symbol.isIdentifier = true)
    (text : Text) :
    tokens (rename .wholeIdentifier suffix names text) =
      (tokens text).map (Token.mapRun (renameRun suffix names.eraseDups)) := by
  have allNonempty : names.eraseDups.filter (· ≠ []) = names.eraseDups := by
    rw [List.filter_eq_self]
    intro name member
    simpa using namesNonempty name (List.mem_eraseDups.mp member)
  rw [tokens_rename suffixInside namesInside, allNonempty]

/--
Renaming changes every maximal run of identifier symbols on its own, as the
distinct nonempty names tell one after the other, and keeps all other symbols.
-/
theorem rename_wholeIdentifier
    (suffix : Text)
    (names : List Text)
    (text : Text)
    (suffixInside : suffix.all Symbol.isIdentifier = true)
    (namesInside : ∀ name ∈ names, name.all Symbol.isIdentifier = true) :
    rename .wholeIdentifier suffix names text =
      spell ((tokens text).map
        (Token.mapRun (renameRun suffix (names.eraseDups.filter (· ≠ []))))) := by
  obtain ⟨_, spelled⟩ := Text.tokens_eq_iff.mp (tokens_rename suffixInside namesInside text)
  exact spelled.symm

/-- A run may be hit again by a later name; a part of a longer run is never hit. -/
theorem rename_wholeIdentifier_twice :
    let names := ["User", "", "UserCapn", "User"].map Text.ofString
    let text := Text.ofString "User UserProfile(UserCapn)é1User"
    let suffix := Text.ofString "Capn"
    suffix.all Symbol.isIdentifier = true ∧
      (∀ name ∈ names, name.all Symbol.isIdentifier = true) ∧
      spell ((tokens text).map
        (Token.mapRun (renameRun suffix (names.eraseDups.filter (· ≠ []))))) =
          Text.ofString "UserCapnCapn UserProfile(UserCapnCapn)é1User" ∧
      rename .wholeIdentifier suffix names text =
        spell ((tokens text).map
          (Token.mapRun (renameRun suffix (names.eraseDups.filter (· ≠ []))))) := by
  intro names text suffix
  have suffixInside : suffix.all Symbol.isIdentifier = true := by decide +kernel
  have namesInside : ∀ name ∈ names, name.all Symbol.isIdentifier = true := by
    decide +kernel
  refine ⟨suffixInside, namesInside, by decide +kernel, ?_⟩
  exact rename_wholeIdentifier suffix names text suffixInside namesInside

end Rename
end SchemaCodegen
