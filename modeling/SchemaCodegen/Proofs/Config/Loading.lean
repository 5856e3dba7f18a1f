import SchemaCodegen.Config.File
import SchemaCodegen.Proofs.Config.Reading
import SchemaCodegen.Proofs.Json.Nesting
import SchemaCodegen.Proofs.Text.Validity

/-!
# Loading settings files

Whatever a settings file holds, loading it gives settings or tells the user what is wrong,
except for four kinds of text: one that is nested too deeply, one that spells a value
which is no object, and an object in which the first member that is refused gives a setting
which follows from others, or the list of references to the settings.
-/

namespace SchemaCodegen

open Json (Value)

namespace Config

variable
  {members : List (Text × Value)}
  {config other : Config}
  {key : Text}
  {value : Value}
  {fault : Fault}
  {bytes : List UInt8}
  {characters : List Char}

/-! ## Faults of members -/

theorem isReported_of_mode (failed : Rename.Mode.ofValue value = .error fault) :
    isReported fault = true := by
  unfold Rename.Mode.ofValue at failed
  split_ifs at failed
  cases failed
  rfl

theorem isReported_of_group
    {α : Type}
    (set : α → Text → Value → Except Fault α)
    {default : α}
    (reported : ∀ {settings : α} {key : Text} {value : Value} {fault : Fault},
      set settings key value = .error fault → isReported fault = true)
    (failed : Section.ofValueBy set default value = .error fault) :
    isReported fault = true := by
  cases value with
  | object members =>
      obtain ⟨settings, key, value, refused⟩ :=
        exists_of_foldlM_eq_error (map_eq_error_iff.mp failed)
      exact reported refused
  | null | bool _ | int _ | float _ | string _ | array _ => cases failed

theorem isReported_of_capnp
    {settings : CapnpSettings}
    (refused : settings.set key value = .error fault) :
    isReported fault = true := by
  unfold CapnpSettings.set at refused
  split_ifs at refused <;> cases refused <;> rfl

theorem isReported_of_msgp
    {settings : MsgpSettings}
    (refused : settings.set key value = .error fault) :
    isReported fault = true := by
  unfold MsgpSettings.set at refused
  split_ifs at refused <;> cases refused <;> rfl

/-- The only setting whose fault is not reported is the one that follows from others. -/
theorem isReported_or_derived_of_assign (failed : config.assign key value = .error fault) :
    isReported fault = true ∨
      key = "has_custom_output_dir" ∧ fault = .derivedSetting "has_custom_output_dir" := by
  unfold assign at failed
  split_ifs at failed with _ _ _ _ _ _ derived
  · exact .inl (isReported_of_mode (map_eq_error_iff.mp failed))
  · have refused := map_eq_error_iff.mp failed
    exact .inl (isReported_of_group CapnpSettings.set isReported_of_capnp refused)
  · have refused := map_eq_error_iff.mp failed
    exact .inl (isReported_of_group MsgpSettings.set isReported_of_msgp refused)
  · cases failed
    exact .inr ⟨derived, rfl⟩

theorem isReported_of_record (failed : ofRecordValue value = .error fault) :
    isReported fault = true := by
  cases value <;> cases failed <;> rfl

/-- Two members have a fault that is not reported. -/
theorem isReported_or_of_set (failed : config.set key value = .error fault) :
    isReported fault = true ∨
      key = "has_custom_output_dir" ∧ fault = .derivedSetting "has_custom_output_dir" ∨
      key = "__weakref__" ∧ fault = .references := by
  unfold set at failed
  split_ifs at failed with references
  · cases failed
    exact .inr (.inr ⟨references, rfl⟩)
  · cases failed
    exact .inl rfl
  · exact .inl (isReported_of_record failed)
  · exact (isReported_or_derived_of_assign failed).imp_right .inl

theorem set_derived :
    config.set "has_custom_output_dir" value =
      .error (.derivedSetting "has_custom_output_dir") := by
  simp [set, assign, lacks]

theorem set_references : config.set "__weakref__" value = .error .references := by
  simp [set]

/-- The fault of a setting does not depend on the settings before. -/
theorem assign_eq_error_of_assign_eq_error (failed : config.assign key value = .error fault) :
    other.assign key value = .error fault := by
  unfold assign at failed ⊢
  split_ifs at failed ⊢ <;> simp_all [map_eq_error_iff]

theorem object_of_assign_group_eq_error
    (group : key = "capnp" ∨ key = "msgp")
    (failed : config.assign key value = .error fault) :
    value.kind = .object := by
  rcases group with rfl | rfl <;> cases value <;>
    simp_all [assign, Section.ofValue, Except.map, Value.kind]

/-- The fault of a member does not depend on the settings before. -/
theorem set_eq_error_of_set_eq_error (failed : config.set key value = .error fault) :
    other.set key value = .error fault := by
  unfold set at failed ⊢
  split_ifs at failed with references notClass all lacks
  · simpa [references] using failed
  · simpa [notClass] using failed
  · simpa [all] using failed
  · rw [if_neg references, if_neg notClass, if_neg all, if_neg]
    · exact assign_eq_error_of_assign_eq_error failed
    · -- Only an object is refused in the place of a group, and so it is not passed over.
      rintro ⟨missing, noObject⟩
      have group : key = "capnp" ∨ key = "msgp" := group_of_lacks missing
      exact noObject (object_of_assign_group_eq_error group failed)

theorem ofValue_object_eq_error_iff :
    ofValue (.object members) = .error fault ↔
      ∃ front key value back, members = front ++ (key, value) :: back ∧
        (∀ member ∈ front, ¬Refuses member.1 member.2) ∧
        set {} key value = .error fault := by
  have accepted_iff (member : Text × Value) :
      (∀ fault, set {} member.1 member.2 ≠ .error fault) ↔ ¬Refuses member.1 member.2 := by
    rw [← fails_set_iff, not_exists]
  have first : ofValue (.object members) = .error fault ↔
      ∃ front key value back, members = front ++ (key, value) :: back ∧
        (∀ member ∈ front, ∀ fault, set {} member.1 member.2 ≠ .error fault) ∧
        set {} key value = .error fault :=
    foldlM_eq_error_iff set_eq_error_of_set_eq_error
  simpa only [accepted_iff] using first

/-! ## Faults of files -/

/-- The characters that the bytes of a settings file spell. -/
def Spells (bytes : List UInt8) (characters : List Char) : Prop :=
  (Utf8.decode bytes).normalizeLineEndings = characters.map .char

/-- What the bytes of a settings file hold when nobody deals with the fault. -/
inductive Escapes (bytes : List UInt8) : Fault → Prop
  /-- Containers nested too deeply. -/
  | nested {characters : List Char} {container : Json.Container} :
      Spells bytes characters →
      Json.read characters = .error (.tooDeep container) →
      Escapes bytes (.malformedJson (.tooDeep container))
  /-- A value that is no object. -/
  | noObject {characters : List Char} {value : Value} :
      Spells bytes characters →
      Json.read characters = .ok value →
      value.kind ≠ .object →
      Escapes bytes (.noSetting value.kind "items")
  /-- A setting that follows from others, given before anything is refused. -/
  | derived {characters : List Char} {front back : List (Text × Value)} {value : Value} :
      Spells bytes characters →
      Json.read characters =
        .ok (.object (front ++ (("has_custom_output_dir" : Text), value) :: back)) →
      (∀ member ∈ front, ¬Refuses member.1 member.2) →
      Escapes bytes (.derivedSetting "has_custom_output_dir")
  /-- The list of references to the settings, given before anything is refused. -/
  | references {characters : List Char} {front back : List (Text × Value)} {value : Value} :
      Spells bytes characters →
      Json.read characters = .ok (.object (front ++ (("__weakref__" : Text), value) :: back)) →
      (∀ member ∈ front, ¬Refuses member.1 member.2) →
      Escapes bytes .references

theorem spells_flatMap_encodeChar (absent : '\r' ∉ characters) :
    Spells (characters.flatMap Utf8.encodeChar) characters := by
  rw [Spells, Utf8.decode_flatMap_encodeChar]
  refine Text.normalizeLineEndings_of_not_mem fun isReturn => ?_
  obtain ⟨character, isCharacter, same⟩ := List.mem_map.mp isReturn
  exact absent (Symbol.char.inj same ▸ isCharacter)

/-- What a settings file means is left to the reader of its characters. -/
theorem ofBytes_of_spells (spells : Spells bytes characters) :
    ofBytes bytes = ((Json.read characters).mapError .malformedJson).bind ofValue := by
  have unicode : (Utf8.decode bytes).IsUnicode := by
    rw [← Text.isUnicode_normalizeLineEndings, spells]
    exact Text.isUnicode_map_char characters
  have accepted : Utf8.Policy.strict.Accepts bytes := Utf8.isValid_iff.mpr unicode
  have normalized : (Utf8.decode bytes).normalizeLineEndings = characters.map .char := spells
  cases read : Json.read characters <;>
    simp only [ofBytes, Utf8.decodeWith_of_accepts accepted, normalized,
      Text.characters?_map_char, Option.getD_some, read, Except.mapError, Except.bind]

/-- The bytes of a file spell characters, or the user is told that they do not. -/
theorem spells_or_isReported (failed : ofBytes bytes = .error fault) :
    (∃ characters, Spells bytes characters) ∨ isReported fault = true := by
  by_cases valid : Utf8.IsValid bytes
  · have unicode := Utf8.isValid_iff.mp valid
    rw [← Text.isUnicode_normalizeLineEndings] at unicode
    exact .inl (Text.exists_eq_map_char unicode)
  · have rejected : ¬Utf8.Policy.strict.Accepts bytes := valid
    obtain ⟨decodeFault, refused⟩ := Utf8.decodeWith_of_not_accepts rejected
    rw [ofBytes, refused] at failed
    cases failed
    exact .inr rfl

theorem unreported_iff_escapes :
    ofBytes bytes = .error fault ∧ isReported fault = false ↔ Escapes bytes fault := by
  constructor
  · rintro ⟨failed, unreported⟩
    rcases spells_or_isReported failed with ⟨characters, spells⟩ | reported
    · rw [ofBytes_of_spells spells] at failed
      cases read : Json.read characters with
      | error readFault =>
          rw [read] at failed
          cases failed
          cases readFault with
          | tooDeep container => exact .nested spells read
          | malformed complaint line column offset => cases unreported
          | longInteger digits => cases unreported
      | ok value =>
          rw [read] at failed
          cases value with
          | object members =>
              obtain ⟨front, key, value, back, rfl, accepted, refused⟩ :=
                ofValue_object_eq_error_iff.mp failed
              rcases isReported_or_of_set refused with reported | ⟨rfl, rfl⟩ | ⟨rfl, rfl⟩
              · rw [reported] at unreported
                contradiction
              · exact .derived spells read accepted
              · exact .references spells read accepted
          | null | bool _ | int _ | float _ | string _ | array _ =>
              cases failed
              exact .noObject spells read nofun
    · rw [reported] at unreported
      contradiction
  · intro escapes
    cases escapes with
    | nested spells failed =>
        rw [ofBytes_of_spells spells, failed]
        exact ⟨rfl, rfl⟩
    | @noObject characters value spells read noObject =>
        rw [ofBytes_of_spells spells, read]
        cases value with
        | object members => exact absurd rfl noObject
        | null | bool _ | int _ | float _ | string _ | array _ => exact ⟨rfl, rfl⟩
    | derived spells read accepted =>
        rw [ofBytes_of_spells spells, read]
        exact ⟨ofValue_object_eq_error_iff.mpr ⟨_, _, _, _, rfl, accepted, set_derived⟩, rfl⟩
    | references spells read accepted =>
        rw [ofBytes_of_spells spells, read]
        exact ⟨ofValue_object_eq_error_iff.mpr ⟨_, _, _, _, rfl, accepted, set_references⟩, rfl⟩

/-! ## Loading -/

section Load

variable {tree : FileTree} {path : Path}

theorem isReported_of_read {fault : AccessFault} (failed : tree.read path = .error fault) :
    isReported (.access fault) = true := by
  unfold FileTree.read at failed
  split at failed
  · rename_i unusable _
    cases failed
    cases unusable <;> rfl
  · split at failed <;> cases failed <;> rfl

theorem load_eq_unhandled_iff :
    load tree path = .error (.unhandled fault) ↔
      ofFile tree path = .error fault ∧ isReported fault = false := by
  unfold load
  cases loaded : ofFile tree path with
  | ok config => simp
  | error other =>
      dsimp only
      cases reported : isReported other with
      | true =>
          rw [if_pos rfl]
          constructor
          · exact nofun
          · rintro ⟨same, unreported⟩
            obtain rfl := Except.error.inj same
            rw [reported] at unreported
            contradiction
      | false =>
          rw [if_neg Bool.false_ne_true]
          constructor
          · intro same
            obtain rfl := Failure.unhandled.inj (Except.error.inj same)
            exact ⟨rfl, reported⟩
          · rintro ⟨same, -⟩
            rw [Except.error.inj same]

/-- Nobody deals with the fault exactly if the file can be read and holds such bytes. -/
theorem load_eq_unhandled_iff_escapes :
    load tree path = .error (.unhandled fault) ↔
      ∃ bytes, tree.read path = .ok bytes ∧ Escapes bytes fault := by
  rw [load_eq_unhandled_iff, ofFile]
  cases opened : tree.read path with
  | error refused =>
      constructor
      · rintro ⟨same, unreported⟩
        obtain rfl := Except.error.inj same
        rw [isReported_of_read opened] at unreported
        contradiction
      · rintro ⟨bytes, read, -⟩
        contradiction
  | ok bytes =>
      simp only [Except.ok.injEq, exists_eq_left']
      exact unreported_iff_escapes

theorem load_eq_ok_or_error :
    (∃ config, load tree path = .ok config) ∨
      (∃ reason, load tree path =
        .error (.diagnostic ("failed to load config file " ++ path.text ++ ": " ++ reason))) ∨
      ∃ fault, load tree path = .error (.unhandled fault) := by
  unfold load
  cases loaded : ofFile tree path with
  | ok config => exact .inl ⟨config, rfl⟩
  | error fault =>
      dsimp only
      cases isReported fault with
      | true => exact .inr (.inl ⟨fault.message, rfl⟩)
      | false => exact .inr (.inr ⟨fault, rfl⟩)

theorem Spells.unique
    {others : List Char}
    (one : Spells bytes characters)
    (another : Spells bytes others) :
    characters = others :=
  List.map_injective_iff.mpr (fun _ _ => Symbol.char.inj) (one.symm.trans another)

/-- In a text that is not nested too deeply only an attribute may be at fault. -/
theorem category_of_escapes
    (escapes : Escapes bytes fault)
    (spells : Spells bytes characters)
    (shallow : Json.levels characters ≤ Nesting.limit) :
    fault.category = .attribute := by
  cases escapes with
  | nested otherSpells failed =>
      obtain rfl := spells.unique otherSpells
      exact absurd (Json.limit_lt_levels_of_read failed) (Nat.not_lt.mpr shallow)
  | noObject _ _ _ => rfl
  | derived _ _ _ => rfl
  | references _ _ _ => rfl

/--
Loading a settings file gives settings or tells the user that it has failed, with four
exceptions that nobody deals with: a text nested too deeply, a value that is no object, and
an object whose first refused member is the setting that follows from others or the list of
references.  The first of them needs more levels of containers than are followed.
-/
theorem load_told_or_escapes (tree : FileTree) (path : Path) :
    ((∃ config, load tree path = .ok config) ∨
      (∃ reason, load tree path =
        .error (.diagnostic ("failed to load config file " ++ path.text ++ ": " ++ reason))) ∨
      ∃ fault, load tree path = .error (.unhandled fault)) ∧
    (∀ fault, load tree path = .error (.unhandled fault) ↔
      ∃ bytes, tree.read path = .ok bytes ∧ Escapes bytes fault) ∧
    ∀ bytes characters fault, tree.read path = .ok bytes → Spells bytes characters →
      Json.levels characters ≤ Nesting.limit →
      load tree path = .error (.unhandled fault) → fault.category = .attribute := by
  refine ⟨load_eq_ok_or_error, fun fault => load_eq_unhandled_iff_escapes,
    fun bytes characters fault opened spells shallow unhandled => ?_⟩
  obtain ⟨others, read, escapes⟩ := load_eq_unhandled_iff_escapes.mp unhandled
  obtain rfl := Except.ok.inj (opened.symm.trans read)
  exact category_of_escapes escapes spells shallow

/-- A setting that follows from others is given behind one that is accepted. -/
theorem load_told_or_escapes_derived :
    let characters := "\x7b\x22verbose\x22: [], \x22has_custom_output_dir\x22: 0\x7d".toList
    let bytes := characters.flatMap Utf8.encodeChar
    let tree : FileTree := ⟨["work"], [(["work", "caps.json"], .file bytes)]⟩
    let fault := Fault.derivedSetting "has_custom_output_dir"
    tree.read ⟨.none, ["caps.json"]⟩ = .ok bytes ∧
      Spells bytes characters ∧
      Json.levels characters ≤ Nesting.limit ∧
      load tree ⟨.none, ["caps.json"]⟩ = .error (.unhandled fault) ∧
      fault.category = .attribute := by
  intro characters bytes tree fault
  have opened : tree.read ⟨.none, ["caps.json"]⟩ = .ok bytes := by
    decide +kernel
  have spells : Spells bytes characters := spells_flatMap_encodeChar (by decide +kernel)
  have shallow : Json.levels characters ≤ Nesting.limit := by decide +kernel
  have unhandled : load tree ⟨.none, ["caps.json"]⟩ = .error (.unhandled fault) := by
    decide +kernel
  obtain ⟨_, _, onlyAttribute⟩ := load_told_or_escapes tree ⟨.none, ["caps.json"]⟩
  exact ⟨opened, spells, shallow, unhandled,
    onlyAttribute bytes characters fault opened spells shallow unhandled⟩

/-- An empty list in the place of an object is not reported. -/
theorem load_escapes_emptyList :
    let characters := ['[', ']']
    let bytes := characters.flatMap Utf8.encodeChar
    let tree : FileTree := ⟨["work"], [(["work", "caps.json"], .file bytes)]⟩
    let path : Path := ⟨.none, ["caps.json"]⟩
    tree.read path = .ok bytes ∧
      Spells bytes characters ∧
      Json.levels characters = 1 ∧
      ¬((∃ config, load tree path = .ok config) ∨
        ∃ reason, load tree path =
          .error (.diagnostic ("failed to load config file " ++ path.text ++ ": " ++ reason))) := by
  intro characters bytes tree path
  have unhandled : load tree path = .error (.unhandled (.noSetting .array "items")) := by
    decide +kernel
  refine ⟨by decide +kernel, spells_flatMap_encodeChar (by decide), by decide, ?_⟩
  rw [unhandled]
  rintro (⟨config, loaded⟩ | ⟨reason, told⟩)
  · cases loaded
  · cases told

end Load

end Config
end SchemaCodegen
