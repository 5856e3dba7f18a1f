import SchemaCodegen.Proofs.Config.Reading

/-!
# Settings from members in another order

Putting members into another order, at the top or anywhere inside of their values, does
not change whether an object is read, and the settings differ in the order of members
alone.
-/

namespace SchemaCodegen

open Json (Value keys)

namespace Json.Value

/-- Members laid over by members that give their keys alike differ in order alone. -/
theorem GivesAlike.reorders_overlay
    {first second : List (Text × Value)}
    (alike : GivesAlike first second)
    (distinct : (Json.keys first).Nodup)
    (members : List (Text × Value)) :
    Reorders (.object (overlay members first)) (.object (overlay members second)) := by
  suffices ∀ front, Reorders (.object (front ++ overlay members first))
      (.object (front ++ overlay members second)) from this []
  induction members with
  | nil => exact fun front => .refl _
  | cons member members inductionHypothesis =>
      intro front
      have reorders : Reorders ((first.lookup member.1).getD member.2)
          ((second.lookup member.1).getD member.2) :=
        rel_getD (alike.lookup distinct member.1) member.2
      have now := Reorders.member front member.1 (overlay members first) reorders
      have later := inductionHypothesis
        (front ++ [(member.1, (second.lookup member.1).getD member.2)])
      rw [List.append_assoc, List.append_assoc] at later
      exact now.trans later

end Json.Value

namespace Section

variable {α : Type}

/-- Two groups whose values differ in the order of members alone. -/
inductive Reorders (toMembers : α → List (Text × Value)) : Section α → Section α → Prop
  /-- The settings differ so, each from its own. -/
  | given {first second : α} :
      Value.Reorders (.object (toMembers first)) (.object (toMembers second)) →
      Reorders toMembers (.given first) (.given second)
  /-- The values in place of the groups differ so. -/
  | other {first second : Value} :
      Value.Reorders first second →
      Reorders toMembers (.other first) (.other second)

theorem Gives.reorders
    {toMembers : α → List (Text × Value)}
    {default : α}
    {old? new? : Option Value}
    {old new : Section α}
    (one : Gives toMembers default old? old)
    (another : Gives toMembers default new? new)
    (distinct : ∀ value ∈ old?, value.HasDistinctKeys)
    (reorders : Option.Rel Value.Reorders old? new?) :
    Reorders toMembers old new := by
  cases reorders with
  | none =>
      cases one
      cases another
      exact .given (.refl _)
  | some reorders =>
      cases one with
      | object old_eq =>
          obtain ⟨others, rfl, alike⟩ := reorders.exists_eq_object
          cases another with
          | object new_eq =>
              refine .given ?_
              rw [old_eq, new_eq]
              exact alike.reorders_overlay (distinct _ rfl).nodup _
          | plain noObject => exact absurd rfl noObject
      | plain noObject =>
          cases another with
          | object _ =>
              rw [← reorders.kind_eq] at noObject
              exact absurd rfl noObject
          | plain _ => exact .other reorders

end Section

namespace Config

variable
  {members others : List (Text × Value)}
  {first second : Config}
  {key : Text}
  {old new : Value}

/-- Settings whose values differ in the order of members alone. -/
structure Reorders (first second : Config) : Prop where
  /-- The directory that generated files are written to. -/
  outputDir : Value.Reorders first.outputDir second.outputDir
  /-- Whether the log tells the details. -/
  verbose : Value.Reorders first.verbose second.verbose
  /-- How declared names are recognised in generated text. -/
  mode : first.mode = second.mode
  /-- What is put behind declared names. -/
  suffix : Value.Reorders first.suffix second.suffix
  /-- The settings of the schema compiler. -/
  capnp : Section.Reorders CapnpSettings.toMembers first.capnp second.capnp
  /-- The settings of the MessagePack generator. -/
  msgp : Section.Reorders MsgpSettings.toMembers first.msgp second.msgp

/-- Two results that are both faults, or settings that differ in order alone. -/
inductive Alike : Except Fault Config → Except Fault Config → Prop
  /-- Both have failed. -/
  | failed {first second : Fault} : Alike (.error first) (.error second)
  /-- Both have settings. -/
  | read {first second : Config} : Reorders first second → Alike (.ok first) (.ok second)

theorem Refuses.reorders
    (refused : Refuses key old)
    (reorders : Value.Reorders old new) :
    Refuses key new := by
  cases refused with
  | mode different =>
      refine .mode fun mode new_eq => different mode ?_
      subst new_eq
      exact reorders.symm.eq_string
  | capnp isKey unknown =>
      obtain ⟨others, rfl, alike⟩ := reorders.exists_eq_object
      exact .capnp (alike.keys.mem_iff.mp isKey) unknown
  | msgp isKey unknown =>
      obtain ⟨others, rfl, alike⟩ := reorders.exists_eq_object
      exact .msgp (alike.keys.mem_iff.mp isKey) unknown
  | derived => exact .derived
  | references => exact .references
  | notClass => exact .notClass
  | notMembers noObject => exact .notMembers (reorders.kind_eq ▸ noObject)

theorem exists_refuses_of_givesAlike
    (alike : Value.GivesAlike members others)
    (distinct : (keys members).Nodup)
    (refused : ∃ member ∈ members, Refuses member.1 member.2) :
    ∃ member ∈ others, Refuses member.1 member.2 := by
  obtain ⟨⟨key, value⟩, isMember, refused⟩ := refused
  have reorders := alike.lookup distinct key
  rw [Json.lookup_of_mem distinct isMember] at reorders
  cases given : others.lookup key with
  | none =>
      rw [given] at reorders
      cases reorders
  | some other =>
      rw [given] at reorders
      cases reorders with
      | some reorders =>
          exact ⟨(key, other), Json.mem_of_lookup given, refused.reorders reorders⟩

theorem Reads.reorders
    (one : Reads members first)
    (another : Reads others second)
    (distinct : (Value.object members).HasDistinctKeys)
    (alike : Value.GivesAlike members others) :
    Reorders first second := by
  have rel := alike.lookup distinct.nodup
  have valueDistinct (key : Text) : ∀ value ∈ members.lookup key, value.HasDistinctKeys :=
    fun value given => distinct.of_mem (Json.mem_of_lookup given)
  constructor
  · rw [one.outputDir, another.outputDir]
    exact Value.rel_getD (rel "output_dir") _
  · rw [one.verbose, another.verbose]
    exact Value.rel_getD (rel "verbose") _
  · -- A mode that has been read is a string, which has no other order.
    obtain ⟨mode, _, written⟩ := ModeSetting.toValue_eq_ok_iff.mp one.mode
    have reorders :=
      Value.rel_getD (rel "disambiguation") (.string Rename.Mode.anywhere.name)
    rw [← written] at reorders
    have same := another.mode
    rw [reorders.eq_string, written] at same
    exact ModeSetting.eq_of_toValue one.mode same
  · rw [one.suffix, another.suffix]
    exact Value.rel_getD (rel "suffix") _
  · exact one.capnp.reorders another.capnp (valueDistinct "capnp") (rel "capnp")
  · exact one.msgp.reorders another.msgp (valueDistinct "msgp") (rel "msgp")

theorem Reads.of_lookup_eq
    (lookup_eq : ∀ key, members.lookup key = others.lookup key)
    (reads : Reads others first) :
    Reads members first where
  outputDir := lookup_eq _ ▸ reads.outputDir
  verbose := lookup_eq _ ▸ reads.verbose
  mode := lookup_eq _ ▸ reads.mode
  suffix := lookup_eq _ ▸ reads.suffix
  capnp := lookup_eq _ ▸ reads.capnp
  msgp := lookup_eq _ ▸ reads.msgp

/-- Reading what differs in the order of members alone fails or succeeds alike. -/
theorem alike_ofValue
    (plain : ∀ key ∈ keys members, key ∉ recordKeys)
    (distinct : (Value.object members).HasDistinctKeys)
    (reorders : Value.Reorders (.object members) new) :
    Alike (ofValue (.object members)) (ofValue new) := by
  obtain ⟨others, rfl, alike⟩ := reorders.exists_eq_object
  have distinctOthers := reorders.hasDistinctKeys distinct
  obtain ⟨_, same, back⟩ := reorders.symm.exists_eq_object
  obtain rfl := Value.object.inj same
  have refused_iff : (∃ fault, ofValue (.object members) = .error fault) ↔
      ∃ fault, ofValue (.object others) = .error fault := by
    rw [fails_ofValue_iff, fails_ofValue_iff]
    exact ⟨exists_refuses_of_givesAlike alike distinct.nodup,
      exists_refuses_of_givesAlike back distinctOthers.nodup⟩
  cases early : ofValue (.object members) with
  | error fault =>
      obtain ⟨other, late⟩ := refused_iff.mp ⟨fault, early⟩
      rw [late]
      exact .failed
  | ok config =>
      cases late : ofValue (.object others) with
      | error fault =>
          obtain ⟨other, failed⟩ := refused_iff.mpr ⟨fault, late⟩
          rw [early] at failed
          contradiction
      | ok other =>
          have plainOthers : ∀ key ∈ keys others, key ∉ recordKeys :=
            fun key member => plain key (alike.keys.mem_iff.mpr member)
          have one := reads_of_ofValue plain distinct early
          have another := reads_of_ofValue plainOthers distinctOthers late
          exact .read (one.reorders another distinct alike)

/--
Reading the members of an object, none of which belongs to the record of the settings,
fails exactly if one of them is refused.  Otherwise every setting is what its key is given
to, or its default.  Members with other keys, and the order of members, make no difference.
-/
theorem ofValue_fieldwise
    (plain : ∀ key ∈ keys members, key ∉ recordKeys)
    (distinct : (Value.object members).HasDistinctKeys) :
    ((∃ fault, ofValue (.object members) = .error fault) ↔
      ∃ member ∈ members, Refuses member.1 member.2) ∧
    (∀ config, ofValue (.object members) = .ok config → Reads members config) ∧
    ofValue (.object (members.filter fun member => member.1 ∈ knownKeys)) =
      ofValue (.object members) ∧
    (∀ others config, members.Perm others →
      (ofValue (.object others) = .ok config ↔ ofValue (.object members) = .ok config)) ∧
    ∀ value, Value.Reorders (.object members) value →
      Alike (ofValue (.object members)) (ofValue value) := by
  refine ⟨fails_ofValue_iff, fun config => reads_of_ofValue plain distinct,
    ofValue_filter_knownKeys, fun others config perm => ?_,
    fun value => alike_ofValue plain distinct⟩
  have distinctOthers := (Value.Reorders.members perm).hasDistinctKeys distinct
  have lookup_eq := Json.lookup_eq_of_perm distinct.nodup perm
  have plainOthers : ∀ key ∈ keys others, key ∉ recordKeys :=
    fun key member => plain key ((perm.map Prod.fst).mem_iff.mpr member)
  rw [ofValue_eq_ok_iff plain distinct, ofValue_eq_ok_iff plainOthers distinctOthers]
  refine and_congr ?_ ⟨.of_lookup_eq lookup_eq, .of_lookup_eq fun key => (lookup_eq key).symm⟩
  exact forall_congr' fun member => imp_congr_left perm.mem_iff.symm

/-- A mode and one setting of a group are given among members of no effect. -/
theorem ofValue_fieldwise_mixed :
    let members : List (Text × Value) :=
      [("comment", .array [.null]), ("disambiguation", .string "token_boundary"),
        ("capnp", .object [("command", .int 1)])]
    let config : Config :=
      { mode := .given .wholeIdentifier
        capnp := .given { command := .int 1 } }
    (∀ key ∈ keys members, key ∉ recordKeys) ∧
      (Value.object members).HasDistinctKeys ∧
      (¬ ∃ member ∈ members, Refuses member.1 member.2) ∧
      Reads members config ∧
      ofValue (.object (members.filter fun member => member.1 ∈ knownKeys)) = .ok config ∧
      (∀ others, members.Perm others → ofValue (.object others) = .ok config) ∧
      ∀ value, Value.Reorders (.object members) value →
        ∃ other, ofValue value = .ok other ∧ Reorders config other := by
  intro members config
  have taken : ofValue (.object members) = .ok config := rfl
  have plain : ∀ key ∈ keys members, key ∉ recordKeys := by decide
  have distinct : (Value.object members).HasDistinctKeys := by
    refine .object (by decide) ?_
    simp only [members, List.forall_mem_cons, List.not_mem_nil, false_imp_iff, implies_true,
      and_true]
    refine ⟨.array ?_, .plain nofun nofun, .object (by decide) ?_⟩
    · simpa using .plain nofun nofun
    · simpa using .plain nofun nofun
  obtain ⟨fails_iff, reads, filtered, permuted, alike⟩ := ofValue_fieldwise plain distinct
  refine ⟨plain, distinct, ?_, reads config taken, filtered.trans taken,
    fun others perm => (permuted others config perm).mpr taken, fun value reorders => ?_⟩
  · rw [← fails_iff, taken]
    exact nofun
  · have result := alike value reorders
    rw [taken] at result
    generalize ofValue value = read at result
    cases result with
    | read reorders => exact ⟨_, rfl, reorders⟩

end Config
end SchemaCodegen
