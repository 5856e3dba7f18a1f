import SchemaCodegen.Proofs.Config.Members

/-!
# What settings are read as

Which members are refused does not depend on the settings before, so reading fails
exactly if any member is refused.  Otherwise, unless a member tells all settings at once,
every setting has the value that its key is given to, or its default, and every other key
is passed over.
-/

namespace SchemaCodegen

open Json (Value keys)

namespace Rename.Mode

variable {value : Value}

theorem fails_iff :
    (∃ fault, ofValue value = .error fault) ↔ ∀ mode : Mode, value ≠ .string mode.name := by
  constructor
  · rintro ⟨fault, failed⟩ mode rfl
    rw [ofValue_name] at failed
    contradiction
  · intro different
    refine ⟨.unknownMode value, ?_⟩
    rw [ofValue, if_neg (different .anywhere), if_neg (different .wholeIdentifier)]

theorem name_of_ofValue {mode : Mode} (taken : ofValue value = .ok mode) :
    .string mode.name = value := by
  unfold ofValue at taken
  split_ifs at taken with first second <;> cases taken
  · exact first.symm
  · exact second.symm

theorem name_injective : Function.Injective name := by
  intro first second same
  have again := ofValue_name first
  rw [same, ofValue_name] at again
  exact (Except.ok.inj again).symm

end Rename.Mode

namespace ModeSetting

variable {first second : ModeSetting} {value : Value}

theorem toValue_eq_ok_iff :
    first.toValue = .ok value ↔ ∃ mode, first = .given mode ∧ .string mode.name = value := by
  cases first <;> simp [toValue]

/-- What is written for a mode tells it. -/
theorem eq_of_toValue
    (one : first.toValue = .ok value)
    (another : second.toValue = .ok value) :
    first = second := by
  obtain ⟨mode, rfl, rfl⟩ := toValue_eq_ok_iff.mp one
  obtain ⟨other, rfl, same⟩ := toValue_eq_ok_iff.mp another
  have names := Value.string.inj same
  rw [Rename.Mode.name_injective (Text.ofString_injective names)]

end ModeSetting

namespace Section

variable {α : Type}

/-- The group that a value gives, where members are taken one by one on top of defaults. -/
def ofValueBy
    (set : α → Text → Value → Except Fault α)
    (default : α)
    (value : Value) : Except Fault (Section α) :=
  ofValue (fun members =>
    members.foldlM (fun settings member => set settings member.1 member.2) default) value

/-- The group that a setting of the given value means, if it is given at all. -/
inductive Gives (toMembers : α → List (Text × Value)) (default : α) :
    Option Value → Section α → Prop
  /-- A group that is not given has its defaults. -/
  | absent : Gives toMembers default none (.given default)
  /-- An object gives the values of its keys on top of the defaults. -/
  | object {members : List (Text × Value)} {settings : α} :
      toMembers settings = overlay (toMembers default) members →
      Gives toMembers default (some (.object members)) (.given settings)
  /-- Any other value is kept in place of the group. -/
  | plain {value : Value} :
      value.kind ≠ .object →
      Gives toMembers default (some value) (.other value)

theorem Gives.unique
    {toMembers : α → List (Text × Value)}
    {default : α}
    {value? : Option Value}
    {first second : Section α}
    (injective : ∀ {settings others : α}, toMembers settings = toMembers others →
      settings = others)
    (one : Gives toMembers default value? first)
    (another : Gives toMembers default value? second) :
    first = second := by
  cases one with
  | absent =>
      cases another
      rfl
  | object settings_eq =>
      cases another with
      | object others_eq => rw [injective (settings_eq.trans others_eq.symm)]
      | plain noObject => exact absurd rfl noObject
  | plain noObject =>
      cases another with
      | object _ => exact absurd rfl noObject
      | plain _ => rfl

section OfValue

variable
  {set : α → Text → Value → Except Fault α}
  {toMembers : α → List (Text × Value)}
  (sets : SetsByKey set toMembers)
  {default : α}
  {value : Value}
include sets

/-- A group is refused exactly if it is an object with a key that names no setting. -/
theorem fails_iff_of_setsByKey :
    (∃ fault, ofValueBy set default value = .error fault) ↔
      ∃ members, value = .object members ∧
        ∃ key ∈ keys members, key ∉ keys (toMembers default) := by
  cases value with
  | object members =>
      simp only [ofValueBy, ofValue, map_fails_iff, fails_iff_not_exists_ok, sets.accepts_foldlM]
      simp
  | null | bool _ | int _ | float _ | string _ | array _ => simp [ofValueBy, ofValue]

theorem gives_of_setsByKey
    {group : Section α}
    (distinct : value.HasDistinctKeys)
    (taken : ofValueBy set default value = .ok group) :
    Gives toMembers default (some value) group := by
  cases value with
  | object members =>
      obtain ⟨settings, given, rfl⟩ := map_eq_ok_iff.mp taken
      exact .object (sets.overlays_foldlM distinct.nodup given)
  | null | bool _ | int _ | float _ | string _ | array _ =>
      cases taken
      exact .plain nofun

end OfValue
end Section

namespace Config

variable
  {members : List (Text × Value)}
  {config after : Config}
  {key : Text}
  {value : Value}

/-! ## One member -/

/-- The values that a key cannot be given to. -/
inductive Refuses : Text → Value → Prop
  /-- A renaming mode that there is not. -/
  | mode {value : Value} :
      (∀ mode : Rename.Mode, value ≠ .string mode.name) →
      Refuses "disambiguation" value
  /-- A key that is no setting of the schema compiler. -/
  | capnp {members : List (Text × Value)} {key : Text} :
      key ∈ keys members →
      key ∉ keys (CapnpSettings.toMembers {}) →
      Refuses "capnp" (.object members)
  /-- A key that is no setting of the MessagePack generator. -/
  | msgp {members : List (Text × Value)} {key : Text} :
      key ∈ keys members →
      key ∉ keys (MsgpSettings.toMembers {}) →
      Refuses "msgp" (.object members)
  /-- A setting that follows from others. -/
  | derived {value : Value} : Refuses "has_custom_output_dir" value
  /-- The list of references to the settings. -/
  | references {value : Value} : Refuses "__weakref__" value
  /-- The class of the settings. -/
  | notClass {value : Value} : Refuses "__class__" value
  /-- All settings at once, if they are not told by an object. -/
  | notMembers {value : Value} :
      value.kind ≠ .object →
      Refuses "__dict__" value

theorem refuses_iff :
    Refuses key value ↔
      (key = "disambiguation" ∧ ∀ mode : Rename.Mode, value ≠ .string mode.name) ∨
      (key = "capnp" ∧ ∃ members, value = .object members ∧
        ∃ key ∈ keys members, key ∉ keys (CapnpSettings.toMembers {})) ∨
      (key = "msgp" ∧ ∃ members, value = .object members ∧
        ∃ key ∈ keys members, key ∉ keys (MsgpSettings.toMembers {})) ∨
      key = "has_custom_output_dir" ∨ key = "__weakref__" ∨ key = "__class__" ∨
      (key = "__dict__" ∧ value.kind ≠ .object) := by
  constructor
  · rintro (different | ⟨isKey, unknown⟩ | ⟨isKey, unknown⟩ | _ | _ | _ | noObject)
    · exact .inl ⟨rfl, different⟩
    · exact .inr (.inl ⟨rfl, _, rfl, _, isKey, unknown⟩)
    · exact .inr (.inr (.inl ⟨rfl, _, rfl, _, isKey, unknown⟩))
    · exact .inr (.inr (.inr (.inl rfl)))
    · exact .inr (.inr (.inr (.inr (.inl rfl))))
    · exact .inr (.inr (.inr (.inr (.inr (.inl rfl)))))
    · exact .inr (.inr (.inr (.inr (.inr (.inr ⟨rfl, noObject⟩)))))
  · rintro (⟨rfl, different⟩ | ⟨rfl, _, rfl, _, isKey, unknown⟩ |
      ⟨rfl, _, rfl, _, isKey, unknown⟩ | rfl | rfl | rfl | ⟨rfl, noObject⟩)
    · exact .mode different
    · exact .capnp isKey unknown
    · exact .msgp isKey unknown
    · exact .derived
    · exact .references
    · exact .notClass
    · exact .notMembers noObject

/-- What becomes of the settings when a key is given to a value. -/
structure Sets (key : Text) (value : Value) (config after : Config) : Prop where
  /-- The directory that generated files are written to. -/
  outputDir :
    if key = "output_dir" then after.outputDir = value
    else after.outputDir = config.outputDir
  /-- Whether the log tells the details. -/
  verbose :
    if key = "verbose" then after.verbose = value
    else after.verbose = config.verbose
  /-- How declared names are recognised in generated text. -/
  mode :
    if key = "disambiguation" then after.mode.toValue = .ok value
    else after.mode = config.mode
  /-- What is put behind declared names. -/
  suffix :
    if key = "suffix" then after.suffix = value
    else after.suffix = config.suffix
  /-- The settings of the schema compiler. -/
  capnp :
    if key = "capnp" then Section.ofValue CapnpSettings.ofMembers value = .ok after.capnp
    else after.capnp = config.capnp
  /-- The settings of the MessagePack generator. -/
  msgp :
    if key = "msgp" then Section.ofValue MsgpSettings.ofMembers value = .ok after.msgp
    else after.msgp = config.msgp

theorem fails_assign_iff :
    (∃ fault, config.assign key value = .error fault) ↔
      (key = "disambiguation" ∧ ∀ mode : Rename.Mode, value ≠ .string mode.name) ∨
      (key = "capnp" ∧ ∃ members, value = .object members ∧
        ∃ key ∈ keys members, key ∉ keys (CapnpSettings.toMembers {})) ∨
      (key = "msgp" ∧ ∃ members, value = .object members ∧
        ∃ key ∈ keys members, key ∉ keys (MsgpSettings.toMembers {})) ∨
      key = "has_custom_output_dir" := by
  unfold assign
  split_ifs with outputDir verbose mode suffix capnp msgp derived
  · simp [outputDir]
  · simp [verbose]
  · rw [map_fails_iff, Rename.Mode.fails_iff]
    simp [mode]
  · simp [suffix]
  · rw [map_fails_iff]
    refine (Section.fails_iff_of_setsByKey CapnpSettings.setsByKey).trans ?_
    simp [capnp]
  · rw [map_fails_iff]
    refine (Section.fails_iff_of_setsByKey MsgpSettings.setsByKey).trans ?_
    simp [msgp]
  · simp [derived]
  · simp [mode, capnp, msgp, derived]

theorem group_of_lacks (missing : config.lacks key = true) : key = "capnp" ∨ key = "msgp" := by
  simp only [lacks, Bool.or_eq_true, Bool.and_eq_true, decide_eq_true_eq] at missing
  exact missing.imp And.left And.left

/-- Whether a value is refused does not depend on the settings before. -/
theorem fails_set_iff :
    (∃ fault, config.set key value = .error fault) ↔ Refuses key value := by
  unfold set
  split_ifs with references notClass all lacks
  · simp [refuses_iff, references]
  · simp [refuses_iff, notClass]
  · cases value <;> simp [refuses_iff, all, ofRecordValue, Value.kind]
  · -- A group that is missing is not given by a value without settings.
    obtain ⟨missing, noObject⟩ := lacks
    rcases group_of_lacks missing with rfl | rfl <;> cases value <;>
      simp_all [refuses_iff, Value.kind]
  · rw [fails_assign_iff, refuses_iff]
    simp [references, notClass, all]

theorem sets_of_assign (taken : config.assign key value = .ok after) :
    Sets key value config after := by
  unfold assign at taken
  split_ifs at taken
  · cases taken
    constructor <;> simp_all
  · cases taken
    constructor <;> simp_all
  · obtain ⟨mode, given, rfl⟩ := map_eq_ok_iff.mp taken
    constructor <;> simp_all [ModeSetting.toValue, Rename.Mode.name_of_ofValue given]
  · cases taken
    constructor <;> simp_all
  · obtain ⟨capnp, given, rfl⟩ := map_eq_ok_iff.mp taken
    constructor <;> simp_all
  · obtain ⟨msgp, given, rfl⟩ := map_eq_ok_iff.mp taken
    constructor <;> simp_all
  · cases taken
    constructor <;> simp_all

/-! ## Members of the settings alone -/

/-- The keys that belong to the record of the settings. -/
def recordKeys : List Text :=
  ["__weakref__", "__class__", "__dict__"]

/-- Settings in which no group is missing. -/
structure IsWhole (config : Config) : Prop where
  /-- The settings of the schema compiler are there. -/
  capnp : config.capnp.isMissing = false
  /-- The settings of the MessagePack generator are there. -/
  msgp : config.msgp.isMissing = false

theorem set_eq_assign
    (whole : config.IsWhole)
    (plain : key ∉ recordKeys) :
    config.set key value = config.assign key value := by
  simp only [recordKeys, List.mem_cons, List.not_mem_nil, or_false, not_or] at plain
  obtain ⟨references, notClass, all⟩ := plain
  have there : config.lacks key = false := by simp [lacks, whole.capnp, whole.msgp]
  simp [set, references, notClass, all, there]

theorem isMissing_of_ofValue
    {α : Type}
    {ofMembers : List (Text × Value) → Except Fault α}
    {group : Section α}
    (given : Section.ofValue ofMembers value = .ok group) :
    group.isMissing = false := by
  unfold Section.ofValue at given
  split at given
  · obtain ⟨settings, _, rfl⟩ := map_eq_ok_iff.mp given
    rfl
  · cases given
    rfl

theorem IsWhole.assign
    (whole : config.IsWhole)
    (taken : config.assign key value = .ok after) :
    after.IsWhole := by
  have sets := sets_of_assign taken
  constructor
  · have capnp := sets.capnp
    split at capnp
    · exact isMissing_of_ofValue capnp
    · rw [capnp, whole.capnp]
  · have msgp := sets.msgp
    split at msgp
    · exact isMissing_of_ofValue msgp
    · rw [msgp, whole.msgp]

/-- Without keys of the record every member is taken by its own setting. -/
theorem ofValue_eq_foldlM_assign (plain : ∀ key ∈ keys members, key ∉ recordKeys) :
    ofValue (.object members) =
      members.foldlM (fun config member => config.assign member.1 member.2) {} := by
  have whole : IsWhole {} := ⟨rfl, rfl⟩
  rw [ofValue]
  generalize ({} : Config) = config at whole
  induction members generalizing config with
  | nil => rfl
  | cons member members inductionHypothesis =>
      rw [Json.keys_cons, List.forall_mem_cons] at plain
      rw [List.foldlM_cons, List.foldlM_cons, set_eq_assign whole plain.1]
      cases taken : config.assign member.1 member.2 with
      | error fault => rfl
      | ok next => exact inductionHypothesis plain.2 next (whole.assign taken)

/-! ## Whole objects -/

/-- The settings are what the members of an object give, on top of the defaults. -/
structure Reads (members : List (Text × Value)) (config : Config) : Prop where
  /-- The directory that generated files are written to. -/
  outputDir : config.outputDir = (members.lookup ("output_dir" : Text)).getD (outputDir {})
  /-- Whether the log tells the details. -/
  verbose : config.verbose = (members.lookup ("verbose" : Text)).getD (verbose {})
  /-- How declared names are recognised in generated text. -/
  mode :
    config.mode.toValue = .ok
      ((members.lookup ("disambiguation" : Text)).getD (.string Rename.Mode.anywhere.name))
  /-- What is put behind declared names. -/
  suffix : config.suffix = (members.lookup ("suffix" : Text)).getD (suffix {})
  /-- The settings of the schema compiler. -/
  capnp :
    Section.Gives CapnpSettings.toMembers {} (members.lookup ("capnp" : Text)) config.capnp
  /-- The settings of the MessagePack generator. -/
  msgp : Section.Gives MsgpSettings.toMembers {} (members.lookup ("msgp" : Text)) config.msgp

theorem fails_ofValue_iff :
    (∃ fault, ofValue (.object members) = .error fault) ↔
      ∃ member ∈ members, Refuses member.1 member.2 :=
  foldlM_fails_iff fails_set_iff

section Parts

variable
  (plain : ∀ key ∈ keys members, key ∉ recordKeys)
  (distinct : (keys members).Nodup)
  (taken : ofValue (.object members) = .ok config)
include plain distinct taken

/-- A part of the settings that only one key changes has what the key is given to. -/
theorem gives_of_ofValue
    {β : Type}
    (part : Config → β)
    (key : Text)
    (gives : Value → β → Prop)
    (sets : ∀ {before after : Config} {other : Text} {value : Value},
      Sets other value before after →
        if other = key then gives value (part after) else part after = part before) :
    (members.lookup key).elim (part config = part {}) fun value => gives value (part config) := by
  rw [ofValue_eq_foldlM_assign plain] at taken
  exact gives_of_foldlM (fun assigned => sets (sets_of_assign assigned)) distinct taken

/-- A part of the settings that is the value of one key has it, or the default. -/
theorem eq_getD_of_ofValue
    (part : Config → Value)
    (key : Text)
    (sets : ∀ {before after : Config} {other : Text} {value : Value},
      Sets other value before after →
        if other = key then part after = value else part after = part before) :
    part config = (members.lookup key).getD (part {}) := by
  have gives := gives_of_ofValue plain distinct taken part key
    (fun value result => result = value) sets
  cases given : members.lookup key <;> rw [given] at gives <;> exact gives

end Parts

/-- A group of settings is what its key is given to, on top of the defaults. -/
theorem gives_group_of_ofValue
    {α : Type}
    {set : α → Text → Value → Except Fault α}
    {toMembers : α → List (Text × Value)}
    {default : α}
    (setsByKey : SetsByKey set toMembers)
    (plain : ∀ key ∈ keys members, key ∉ recordKeys)
    (distinct : (Value.object members).HasDistinctKeys)
    (taken : ofValue (.object members) = .ok config)
    (part : Config → Section α)
    (key : Text)
    (sets : ∀ {before after : Config} {other : Text} {value : Value},
      Sets other value before after →
        if other = key then Section.ofValueBy set default value = .ok (part after)
        else part after = part before)
    (part_default : part {} = .given default) :
    Section.Gives toMembers default (members.lookup key) (part config) := by
  have gives := gives_of_ofValue plain distinct.nodup taken part key
    (fun value group => Section.ofValueBy set default value = .ok group) sets
  cases given : members.lookup key with
  | none =>
      rw [given, Option.elim_none, part_default] at gives
      exact gives ▸ .absent
  | some value =>
      rw [given] at gives
      have valueDistinct := distinct.of_mem (Json.mem_of_lookup given)
      exact Section.gives_of_setsByKey setsByKey valueDistinct gives

theorem reads_of_ofValue
    (plain : ∀ key ∈ keys members, key ∉ recordKeys)
    (distinct : (Value.object members).HasDistinctKeys)
    (taken : ofValue (.object members) = .ok config) :
    Reads members config where
  outputDir := eq_getD_of_ofValue plain distinct.nodup taken outputDir "output_dir" Sets.outputDir
  verbose := eq_getD_of_ofValue plain distinct.nodup taken verbose "verbose" Sets.verbose
  mode := by
    have gives := gives_of_ofValue plain distinct.nodup taken mode "disambiguation"
      (fun value mode => mode.toValue = .ok value) Sets.mode
    cases given : members.lookup ("disambiguation" : Text) with
    | none =>
        rw [given] at gives
        exact congrArg ModeSetting.toValue gives
    | some value =>
        rw [given] at gives
        exact gives
  suffix := eq_getD_of_ofValue plain distinct.nodup taken suffix "suffix" Sets.suffix
  capnp :=
    gives_group_of_ofValue CapnpSettings.setsByKey plain distinct taken capnp "capnp" Sets.capnp rfl
  msgp :=
    gives_group_of_ofValue MsgpSettings.setsByKey plain distinct taken msgp "msgp" Sets.msgp rfl

theorem Reads.unique
    {other : Config}
    (one : Reads members config)
    (another : Reads members other) :
    config = other := by
  have mode_eq : config.mode = other.mode := ModeSetting.eq_of_toValue one.mode another.mode
  have capnp_eq : config.capnp = other.capnp :=
    one.capnp.unique CapnpSettings.toMembers_injective another.capnp
  have msgp_eq : config.msgp = other.msgp :=
    one.msgp.unique MsgpSettings.toMembers_injective another.msgp
  have outputDir_eq := one.outputDir.trans another.outputDir.symm
  have verbose_eq := one.verbose.trans another.verbose.symm
  have suffix_eq := one.suffix.trans another.suffix.symm
  obtain ⟨_, _, _, _, _, _⟩ := config
  obtain ⟨_, _, _, _, _, _⟩ := other
  simp_all

/-- An object is read exactly if no member is refused, and then field by field. -/
theorem ofValue_eq_ok_iff
    (plain : ∀ key ∈ keys members, key ∉ recordKeys)
    (distinct : (Value.object members).HasDistinctKeys) :
    ofValue (.object members) = .ok config ↔
      (∀ member ∈ members, ¬ Refuses member.1 member.2) ∧ Reads members config := by
  constructor
  · intro taken
    refine ⟨fun member isMember refused => ?_, reads_of_ofValue plain distinct taken⟩
    obtain ⟨fault, failed⟩ := fails_ofValue_iff.mpr ⟨member, isMember, refused⟩
    rw [taken] at failed
    contradiction
  · rintro ⟨accepted, reads⟩
    cases taken : ofValue (.object members) with
    | error fault =>
        obtain ⟨member, isMember, refused⟩ := fails_ofValue_iff.mp ⟨fault, taken⟩
        exact absurd refused (accepted member isMember)
    | ok other => rw [(reads_of_ofValue plain distinct taken).unique reads]

/-! ## Keys without effect -/

/-- The keys that are named as settings, the one that follows from others included. -/
def settingKeys : List Text :=
  ["output_dir", "verbose", "disambiguation", "suffix", "capnp", "msgp",
    "has_custom_output_dir"]

/-- The keys that say anything about the settings. -/
def knownKeys : List Text :=
  settingKeys ++ recordKeys

theorem set_of_not_mem_knownKeys (unknown : key ∉ knownKeys) :
    config.set key value = .ok config := by
  simp only [knownKeys, settingKeys, recordKeys, List.mem_append, List.mem_cons,
    List.not_mem_nil, or_false, not_or] at unknown
  simp [set, assign, lacks, unknown]

/-- Members whose keys say nothing can be left out. -/
theorem ofValue_filter_knownKeys :
    ofValue (.object (members.filter fun member => member.1 ∈ knownKeys)) =
      ofValue (.object members) := by
  simp only [ofValue]
  generalize ({} : Config) = config
  induction members generalizing config with
  | nil => rfl
  | cons member members inductionHypothesis =>
      by_cases known : member.1 ∈ knownKeys
      · rw [List.filter_cons_of_pos (by simpa using known), List.foldlM_cons, List.foldlM_cons]
        exact bind_congr inductionHypothesis
      · rw [List.filter_cons_of_neg (by simpa using known), List.foldlM_cons,
          set_of_not_mem_knownKeys known]
        exact inductionHypothesis config

end Config
end SchemaCodegen
