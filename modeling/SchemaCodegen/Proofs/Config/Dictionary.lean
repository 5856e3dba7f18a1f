import SchemaCodegen.Config.Dictionary

/-!
# Settings written and read again

Settings are written as an object exactly when their mode was read as one and both of
their groups have settings.  Reading that object gives the same settings again, whatever
their values are.
-/

namespace SchemaCodegen

open Json (Value)

namespace CapnpSettings

@[simp] theorem ofMembers_toMembers (settings : CapnpSettings) :
    ofMembers settings.toMembers = .ok settings := rfl

end CapnpSettings

namespace MsgpSettings

@[simp] theorem ofMembers_toMembers (settings : MsgpSettings) :
    ofMembers settings.toMembers = .ok settings := rfl

end MsgpSettings

namespace Config

/-- The members that give all settings, the settings of the groups included. -/
def toMembers
    (config : Config)
    (mode : Rename.Mode)
    (capnp : CapnpSettings)
    (msgp : MsgpSettings) : List (Text × Value) :=
  [("output_dir", config.outputDir), ("verbose", config.verbose),
    ("disambiguation", .string mode.name), ("suffix", config.suffix),
    ("capnp", .object capnp.toMembers), ("msgp", .object msgp.toMembers)]

theorem toValue_eq_ok_iff
    {config : Config}
    {value : Value} :
    config.toValue = .ok value ↔
      ∃ mode capnp msgp, config.mode = .given mode ∧ config.capnp = .given capnp ∧
        config.msgp = .given msgp ∧ value = .object (config.toMembers mode capnp msgp) := by
  obtain ⟨outputDir, verbose, mode, suffix, capnp, msgp⟩ := config
  cases mode <;> cases capnp <;> cases msgp <;>
    simp [toValue, toMembers, ModeSetting.toValue, Section.require, eq_comm]

theorem ofValue_toMembers
    {config : Config}
    {mode : Rename.Mode}
    {capnp : CapnpSettings}
    {msgp : MsgpSettings}
    (mode_eq : config.mode = .given mode)
    (capnp_eq : config.capnp = .given capnp)
    (msgp_eq : config.msgp = .given msgp) :
    ofValue (.object (config.toMembers mode capnp msgp)) = .ok config := by
  obtain ⟨outputDir, verbose, _, suffix, _, _⟩ := config
  subst mode_eq capnp_eq msgp_eq
  -- Each of the six members overwrites one setting, so nothing is left of the defaults.
  simp [ofValue, toMembers, set, assign, lacks, Section.isMissing, Section.ofValue, Except.map,
    bind, Except.bind, pure, Except.pure]

theorem ofValue_toValue
    {config : Config}
    {value : Value}
    (written : config.toValue = .ok value) :
    ofValue value = .ok config := by
  obtain ⟨mode, capnp, msgp, mode_eq, capnp_eq, msgp_eq, rfl⟩ :=
    toValue_eq_ok_iff.mp written
  exact ofValue_toMembers mode_eq capnp_eq msgp_eq

/--
Settings that were read and can be written are read again from what is written, and
written in the same way.  Nothing that can be read is left out of what is written.
-/
theorem ofValue_rewritten
    {given value : Value}
    {config : Config}
    (read : ofValue given = .ok config)
    (written : config.toValue = .ok value) :
    ofValue value = .ok config ∧
      (ofValue value).bind toValue = .ok value ∧
      ∀ other otherConfig, ofValue other = .ok otherConfig →
        otherConfig.toValue = .ok value → ofValue other = ofValue given := by
  have again := ofValue_toValue written
  refine ⟨again, ?_, ?_⟩
  · rw [again]
    exact written
  · intro other otherConfig otherRead otherWritten
    rw [otherRead, read, ← ofValue_toValue otherWritten, again]

/-- Values of the wrong kinds are kept, and unknown members make no difference. -/
theorem ofValue_rewritten_mixed :
    let command : Value := .array [.int 1000000000000000000000000000000, .object [([], .null)]]
    let given : Value := .object
      [("suffix", .null), ("unknown", .array []), ("verbose", .float .nan),
        ("capnp", .object [("command", command)]),
        ("disambiguation", .string "token_boundary")]
    let config : Config :=
      { suffix := .null
        verbose := .float .nan
        mode := .given .wholeIdentifier
        capnp := .given { command := command } }
    let value : Value := .object
      [("output_dir", .string "."), ("verbose", .float .nan),
        ("disambiguation", .string "token_boundary"), ("suffix", .null),
        ("capnp", .object
          [("command", command),
            ("schema_dir", .string "."),
            ("go_capnp_dir", .string "vendor/github.com/glycerine/go-capnproto"),
            ("plain_plugin", .string "pgo"), ("codec_plugin", .string "go")]),
        ("msgp", .object [("command", .string "msgp"), ("generate_tests", .bool false)])]
    ofValue given = .ok config ∧ config.toValue = .ok value ∧
      (ofValue value = .ok config ∧
        (ofValue value).bind toValue = .ok value ∧
        ∀ other otherConfig, ofValue other = .ok otherConfig →
          otherConfig.toValue = .ok value → ofValue other = ofValue given) := by
  intro command given config value
  have read : ofValue given = .ok config := rfl
  have written : config.toValue = .ok value := rfl
  exact ⟨read, written, ofValue_rewritten read written⟩

end Config
end SchemaCodegen
