import SchemaCodegen.Proofs.CommandLine.Conclusion

/-!
# Layers of settings

The settings of a run come from a settings file or the defaults, from variables and from
options.  Each setting is replaced on its own: an option replaces it, or else a variable
that is not empty, and all other settings stay as they are below.
-/

namespace SchemaCodegen
namespace CommandLine

open Json (Value)

/-! ## What is given -/

/-- A setting is given a value by an option, and no later option gives it another one. -/
def LastGiven (items : List Item) (setting : Setting) (value : Text) : Prop :=
  ∃ front back, items = front ++ .setting setting value :: back ∧
    ∀ other, Item.setting setting other ∉ back

/-- What a setting is given: by an option, or else by a variable that is not empty. -/
inductive Gives
    (environment : Environment)
    (items : List Item)
    (setting : Setting)
    (value : Text) : Prop
  /-- The last option for the setting has the value. -/
  | option :
      LastGiven items setting value →
      Gives environment items setting value
  /-- There is no option for the setting, and its variable has the value. -/
  | ofVariable {name : String} :
      (∀ other, Item.setting setting other ∉ items) →
      setting.fallback? = some name →
      environment.lookup name = some value →
      value ≠ [] →
      Gives environment items setting value

/-- A setting is replaced by what it is given, and stays if it is given nothing. -/
inductive Overlays
    (environment : Environment)
    (items : List Item)
    (setting : Setting)
    (base : Value) : Value → Prop
  /-- The setting is given a text. -/
  | replaced {text : Text} :
      Gives environment items setting text →
      Overlays environment items setting base (.string text)
  /-- The setting is given nothing. -/
  | kept :
      (∀ text, ¬Gives environment items setting text) →
      Overlays environment items setting base base

/-- The settings below options and variables. -/
inductive Loads (tree : FileTree) (items : List Item) : Config → Prop
  /-- No settings file is named, so all settings have their defaults. -/
  | defaults :
      (∀ other, Item.setting .config other ∉ items) →
      Loads tree items {}
  /-- The settings file can be read. -/
  | file {path : Text} {base : Config} :
      LastGiven items .config path →
      Config.load tree (configPath tree path) = .ok base →
      Loads tree items base

/-- The settings of a run, setting by setting, and the ones below. -/
structure Layers
    (environment : Environment)
    (items : List Item)
    (base settings : Config) : Prop where
  /-- The output directory is given or kept. -/
  outputDir : Overlays environment items .outputDir base.outputDir settings.outputDir
  /-- A flag makes the run tell its details. -/
  verbose :
    settings.verbose = if Item.flag .verbose ∈ items then .bool true else base.verbose
  /-- A flag selects whole identifiers. -/
  mode :
    settings.mode =
      if Item.flag .wholeIdentifiers ∈ items then .given .wholeIdentifier else base.mode
  /-- The suffix is kept. -/
  suffix : settings.suffix = base.suffix
  /-- The include directories are given or kept, and the rest of the compiler's settings is kept. -/
  capnp :
    ∃ below above, base.capnp = .given below ∧ settings.capnp = .given above ∧
      Overlays environment items .schemaDir below.schemaDir above.schemaDir ∧
      Overlays environment items .goCapnpDir below.goCapnpDir above.goCapnpDir ∧
      above.command = below.command ∧ above.plainPlugin = below.plainPlugin ∧
      above.codecPlugin = below.codecPlugin
  /-- The settings of the MessagePack generator are kept. -/
  msgp : settings.msgp = base.msgp

section Items

variable {items : List Item}

theorem hasFlag_iff_mem (flag : Flag) : hasFlag items flag = true ↔ Item.flag flag ∈ items := by
  simp [hasFlag, Item.isFlag]

theorem value?_eq_some_iff
    {item : Item}
    {setting : Setting}
    {value : Text} :
    Item.value? setting item = some value ↔ item = .setting setting value := by
  cases item with
  | setting given text =>
      by_cases same : given = setting <;> simp [Item.value?, same]
  | flag _ | extra _ => simp [Item.value?]

theorem lastValue?_eq_none_iff (setting : Setting) :
    lastValue? items setting = none ↔ ∀ value, Item.setting setting value ∉ items := by
  rw [lastValue?, List.getLast?_eq_none_iff, List.filterMap_eq_nil_iff]
  constructor
  · intro none value member
    have some_eq := value?_eq_some_iff.mpr (rfl : Item.setting setting value = _)
    simp [none _ member] at some_eq
  · intro absent item member
    rw [Option.eq_none_iff_forall_not_mem]
    intro value found
    rw [value?_eq_some_iff.mp found] at member
    exact absent value member

theorem lastValue?_eq_some_iff
    {setting : Setting}
    {value : Text} :
    lastValue? items setting = some value ↔ LastGiven items setting value := by
  constructor
  · intro last
    obtain ⟨values, values_eq⟩ := List.getLast?_eq_some_iff.mp last
    obtain ⟨early, late, rfl, _, late_eq⟩ := List.filterMap_eq_append_iff.mp values_eq
    obtain ⟨front, item, back, rfl, _, found, none⟩ := List.filterMap_eq_cons_iff.mp late_eq
    rw [value?_eq_some_iff] at found
    refine ⟨early ++ front, back, by simp [found], ?_⟩
    rw [← lastValue?_eq_none_iff, lastValue?, none, List.getLast?_nil]
  · rintro ⟨front, back, rfl, absent⟩
    have none : back.filterMap (Item.value? setting) = [] := by
      rw [← List.getLast?_eq_none_iff]
      exact (lastValue?_eq_none_iff setting).mpr absent
    simp [lastValue?, none, Item.value?]

variable {environment : Environment} {setting : Setting}

theorem valueOf_eq_some_iff
    {value : Text} :
    valueOf environment items setting = some value ↔
      Gives environment items setting value := by
  unfold valueOf
  constructor
  · intro given
    split at given
    case h_1 text last =>
      rw [← Option.some.inj given]
      exact .option (lastValue?_eq_some_iff.mp last)
    case h_2 none =>
      obtain ⟨found, nonempty⟩ := Option.filter_eq_some_iff.mp given
      obtain ⟨name, named, stored⟩ := Option.bind_eq_some_iff.mp found
      exact .ofVariable ((lastValue?_eq_none_iff setting).mp none) named stored
        (by simpa using nonempty)
  · rintro (last | ⟨absent, named, stored, nonempty⟩)
    · rw [lastValue?_eq_some_iff.mpr last]
    · rw [(lastValue?_eq_none_iff setting).mpr absent, named]
      simp [stored, nonempty]

theorem overlays_iff
    {base value : Value} :
    Overlays environment items setting base value ↔
      value = (valueOf environment items setting).elim base .string := by
  constructor
  · rintro (given | none)
    · rw [valueOf_eq_some_iff.mpr given, Option.elim_some]
    · have nothing : valueOf environment items setting = Option.none := by
        rw [Option.eq_none_iff_forall_not_mem]
        exact fun text found => none text (valueOf_eq_some_iff.mp found)
      rw [nothing, Option.elim_none]
  · rintro rfl
    cases given : valueOf environment items setting with
    | some text => exact .replaced (valueOf_eq_some_iff.mp given)
    | none =>
        refine .kept fun text gives => ?_
        rw [valueOf_eq_some_iff.mpr gives] at given
        contradiction

/-- A setting without a variable is given by options alone. -/
theorem valueOf_eq_lastValue? (noVariable : setting.fallback? = none) :
    valueOf environment items setting = lastValue? items setting := by
  unfold valueOf
  rw [noVariable]
  cases lastValue? items setting <;> rfl

end Items

/-! ## Layers -/

theorem override_of_given
    {config : Config}
    {compiler : CapnpSettings}
    (given : config.capnp = .given compiler)
    (setting : String)
    (value : Option Text)
    (change : CapnpSettings → Value → CapnpSettings) :
    Request.override config setting value change =
      .ok { config with
        capnp := .given (value.elim compiler fun text => change compiler (.string text)) } := by
  cases value with
  | none => simp [Request.override, ← given]
  | some text => simp [Request.override, given, Section.require, Except.map]

theorem layer_of_given
    (request : Request)
    {base : Config}
    {compiler : CapnpSettings}
    (given : base.capnp = .given compiler) :
    request.layer base =
      .ok { base with
        outputDir := request.outputDir.elim base.outputDir .string
        verbose := if request.verbose then .bool true else base.verbose
        mode := if request.wholeIdentifiers then .given .wholeIdentifier else base.mode
        capnp := .given { compiler with
          schemaDir := request.schemaDir.elim compiler.schemaDir .string
          goCapnpDir := request.goCapnpDir.elim compiler.goCapnpDir .string } } := by
  let flagged : Config :=
    { base with
      outputDir := request.outputDir.elim base.outputDir .string
      verbose := if request.verbose then .bool true else base.verbose
      mode := if request.wholeIdentifiers then .given .wholeIdentifier else base.mode }
  have flagged_capnp : flagged.capnp = .given compiler := given
  have layer_eq :
      request.layer base =
        (Request.override flagged "schema_dir" request.schemaDir
          fun settings value => { settings with schemaDir := value }).bind fun config =>
            Request.override config "go_capnp_dir" request.goCapnpDir
              fun settings value => { settings with goCapnpDir := value } := rfl
  rw [layer_eq, override_of_given flagged_capnp, Except.bind, override_of_given rfl]
  cases request.schemaDir <;> cases request.goCapnpDir <;> rfl

/-- Settings of the schema compiler do not come from options alone. -/
theorem exists_given_of_layer
    {request : Request}
    {base settings : Config}
    {above : CapnpSettings}
    (layered : request.layer base = .ok settings)
    (given : settings.capnp = .given above) :
    ∃ below, base.capnp = .given below := by
  cases below : base.capnp with
  | given compiler => exact ⟨compiler, rfl⟩
  | other | missing =>
      cases schemaDir : request.schemaDir <;> cases goCapnpDir : request.goCapnpDir <;>
        simp [Request.layer, Request.override, below, schemaDir, goCapnpDir, Section.require,
          bind, Except.bind, Except.map] at layered
      rw [← layered] at given
      contradiction

section Requests

variable {environment : Environment} {items : List Item} {base settings : Config}

/-- Layering a request replaces every setting as its items and variables tell. -/
theorem exists_layer_iff :
    (∃ above, (Request.ofItems environment items).layer base = .ok settings ∧
      settings.capnp = .given above) ↔ Layers environment items base settings := by
  constructor
  · rintro ⟨above, layered, given⟩
    obtain ⟨below, below_eq⟩ := exists_given_of_layer layered given
    rw [layer_of_given _ below_eq] at layered
    obtain rfl := Except.ok.inj layered
    exact
      { outputDir := overlays_iff.mpr rfl
        verbose := by simp [Request.ofItems, hasFlag_iff_mem]
        mode := by simp [Request.ofItems, hasFlag_iff_mem]
        suffix := rfl
        capnp := ⟨below, _, below_eq, rfl, overlays_iff.mpr rfl, overlays_iff.mpr rfl,
          rfl, rfl, rfl⟩
        msgp := rfl }
  · rintro ⟨outputDir, verbose, mode, suffix, ⟨below, above, below_eq, above_eq, schemaDir,
      goCapnpDir, command, plainPlugin, codecPlugin⟩, msgp⟩
    refine ⟨above, ?_, above_eq⟩
    rw [overlays_iff] at outputDir schemaDir goCapnpDir
    rw [layer_of_given _ below_eq]
    -- Both sides are records, which are equal field by field.
    cases settings
    cases above
    subst outputDir verbose mode suffix above_eq schemaDir goCapnpDir command plainPlugin
      codecPlugin msgp
    simp [Request.ofItems, hasFlag_iff_mem]

/-- An option wins over its variable, an empty variable gives nothing, an empty option does. -/
example :
    (Request.ofItems [("CAPS_SCHEMA_DIR", "variable"), ("CAPS_GO_CAPNP_DIR", "")]
        [.setting .schemaDir "option", .setting .outputDir ""]).layer {} =
      .ok { outputDir := .string "", capnp := .given { schemaDir := .string "option" } } := by
  rfl

variable {tree : FileTree}

theorem baseConfig_eq_ok_iff :
    (Request.ofItems environment items).baseConfig tree = .ok base ↔ Loads tree items base := by
  have named : (Request.ofItems environment items).config = lastValue? items .config :=
    valueOf_eq_lastValue? rfl
  unfold Request.baseConfig
  rw [named]
  constructor
  · intro loaded
    split at loaded
    case h_1 none =>
      rw [← Except.ok.inj loaded]
      exact .defaults ((lastValue?_eq_none_iff _).mp none)
    case h_2 path last => exact .file (lastValue?_eq_some_iff.mp last) loaded
  · rintro (absent | ⟨last, loaded⟩)
    · rw [(lastValue?_eq_none_iff _).mpr absent]
    · rw [lastValue?_eq_some_iff.mpr last]
      exact loaded

theorem settings_eq_ok_iff {request : Request} :
    request.settings tree = .ok settings ↔
      ∃ base, request.baseConfig tree = .ok base ∧ request.layer base = .ok settings := by
  unfold Request.settings
  rcases request.baseConfig tree with failure | base
  · simp [Except.bind]
  · simp [Except.bind, mapError_eq_ok_iff]

theorem exists_settings_iff :
    (∃ above, (Request.ofItems environment items).settings tree = .ok settings ∧
      settings.capnp = .given above) ↔
      ∃ base, Loads tree items base ∧ Layers environment items base settings := by
  constructor
  · rintro ⟨above, settings_eq, given⟩
    obtain ⟨base, loaded, layered⟩ := settings_eq_ok_iff.mp settings_eq
    exact ⟨base, baseConfig_eq_ok_iff.mp loaded, exists_layer_iff.mp ⟨above, layered, given⟩⟩
  · rintro ⟨base, loads, layers⟩
    obtain ⟨above, layered, given⟩ := exists_layer_iff.mpr layers
    exact ⟨above, settings_eq_ok_iff.mpr ⟨base, baseConfig_eq_ok_iff.mpr loads, layered⟩, given⟩

theorem readSource_eq_ok_iff
    {path : Text}
    {source : Schema.Source} :
    readSource tree path = .ok source ↔
      Schema.Source.read tree (Path.ofText path) = .ok source :=
  mapError_eq_ok_iff

end Requests

/--
The command comes to a run exactly when the command line is accepted, the named schema
can be read, there are settings to layer upon and the schema compiler that they name can
be looked for.  The run is that of the layered settings on this schema.
-/
theorem conclude_eq_ran_iff
    (surroundings : Surroundings)
    (tree : FileTree)
    (session : Session) :
    conclude surroundings tree = .ran session ↔
      ∃ items path source base settings compiler found,
        Accepts tree surroundings.arguments items ∧
          LastGiven items .source path ∧
          Schema.Source.read tree (Path.ofText path) = .ok source ∧
          Loads tree items base ∧
          Layers surroundings.environment items base settings ∧
          settings.capnp = .given compiler ∧
          surroundings.runner.finds compiler.command = .ok found ∧
          session = sessionOf surroundings tree settings compiler.command found source := by
  rw [conclude_eq_ran_iff_serve]
  have named : ∀ items, (Request.ofItems surroundings.environment items).source =
      lastValue? items .source := fun items => valueOf_eq_lastValue? rfl
  constructor
  · rintro ⟨items, path, accepts, source_eq, served⟩
    obtain ⟨settings, source, compiler, found, settings_eq, read, given, looked, rfl⟩ :=
      serve_eq_ok_iff.mp served
    obtain ⟨base, loads, layers⟩ := exists_settings_iff.mp ⟨compiler, settings_eq, given⟩
    rw [named, lastValue?_eq_some_iff] at source_eq
    exact ⟨items, path, source, base, settings, compiler, found, accepts, source_eq,
      readSource_eq_ok_iff.mp read, loads, layers, given, looked, rfl⟩
  · rintro ⟨items, path, source, base, settings, compiler, found, accepts, last, read, loads,
      layers, given, looked, rfl⟩
    obtain ⟨_, settings_eq, _⟩ := exists_settings_iff.mpr ⟨base, loads, layers⟩
    refine ⟨items, path, accepts, ?_, ?_⟩
    · rw [named, lastValue?_eq_some_iff]
      exact last
    · exact serve_eq_ok_iff.mpr ⟨settings, source, compiler, found, settings_eq,
        readSource_eq_ok_iff.mpr read, given, looked, rfl⟩

end CommandLine
end SchemaCodegen
