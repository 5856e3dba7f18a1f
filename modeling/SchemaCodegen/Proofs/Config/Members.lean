import Mathlib.Data.List.Nodup
import SchemaCodegen.Config.Dictionary
import SchemaCodegen.Proofs.Json.Reordering

/-!
# Settings given by members

Members are taken one after the other.  With different keys each setting has the value
that its key is given to, or the one it had before, and the first member that is refused
decides the fault.  A group of settings refuses exactly the keys that name none of them.
-/

namespace SchemaCodegen

open Json (Value keys)

/-! ## Results -/

section Result

variable {α β : Type} {result : Except Fault α} {made : α → β}

theorem map_eq_ok_iff {after : β} :
    result.map made = .ok after ↔ ∃ value, result = .ok value ∧ made value = after := by
  cases result <;> simp [Except.map]

theorem map_eq_error_iff {fault : Fault} :
    result.map made = .error fault ↔ result = .error fault := by
  cases result <;> simp [Except.map]

theorem map_fails_iff :
    (∃ fault, result.map made = .error fault) ↔ ∃ fault, result = .error fault := by
  cases result <;> simp [Except.map]

theorem fails_iff_not_exists_ok :
    (∃ fault, result = .error fault) ↔ ¬ ∃ value, result = .ok value := by
  cases result <;> simp

end Result

/-! ## One member after the other -/

section Taking

variable
  {σ : Type}
  {set : σ → Text → Value → Except Fault σ}
  {members : List (Text × Value)}
  {before after : σ}

/-- Members are taken as long as none of them is refused. -/
theorem foldlM_cons_eq_ok_iff {member : Text × Value} :
    (member :: members).foldlM (fun state member => set state member.1 member.2) before =
        .ok after ↔
      ∃ next, set before member.1 member.2 = .ok next ∧
        members.foldlM (fun state member => set state member.1 member.2) next = .ok after := by
  rw [List.foldlM_cons]
  cases taken : set before member.1 member.2 with
  | error fault => simp [bind, Except.bind]
  | ok next => simp [bind, Except.bind]

/-- A fault is that of some member. -/
theorem exists_of_foldlM_eq_error
    {fault : Fault}
    (failed : members.foldlM (fun state member => set state member.1 member.2) before =
      .error fault) :
    ∃ state key value, set state key value = .error fault := by
  induction members generalizing before with
  | nil => cases failed
  | cons member members inductionHypothesis =>
      rw [List.foldlM_cons] at failed
      cases taken : set before member.1 member.2 with
      | error early =>
          rw [taken] at failed
          obtain rfl := Except.error.inj failed
          exact ⟨before, member.1, member.2, taken⟩
      | ok next =>
          rw [taken] at failed
          exact inductionHypothesis failed

/-- If what is refused does not depend on the state, taking members fails if one is refused. -/
theorem foldlM_fails_iff
    {refuses : Text → Value → Prop}
    (fails : ∀ {state : σ} {key : Text} {value : Value},
      (∃ fault, set state key value = .error fault) ↔ refuses key value) :
    (∃ fault, members.foldlM (fun state member => set state member.1 member.2) before =
        .error fault) ↔
      ∃ member ∈ members, refuses member.1 member.2 := by
  induction members generalizing before with
  | nil => simp [pure, Except.pure]
  | cons member members inductionHypothesis =>
      rw [List.exists_mem_cons_iff, ← @fails before, List.foldlM_cons]
      cases taken : set before member.1 member.2 with
      | error fault => simp [bind, Except.bind]
      | ok next =>
          rw [← @inductionHypothesis next]
          simp [bind, Except.bind]

/--
A part of the state that only one key changes has what the key is given to.  The relation
`gives` says what a value makes of that part.
-/
theorem gives_of_foldlM
    {β : Type}
    {part : σ → β}
    {key : Text}
    {gives : Value → β → Prop}
    (sets : ∀ {state next : σ} {other : Text} {value : Value},
      set state other value = .ok next →
        if other = key then gives value (part next) else part next = part state)
    (distinct : (keys members).Nodup)
    (taken : members.foldlM (fun state member => set state member.1 member.2) before =
      .ok after) :
    (members.lookup key).elim (part after = part before) fun value =>
      gives value (part after) := by
  induction members generalizing before with
  | nil =>
      obtain rfl : before = after := Except.ok.inj taken
      rfl
  | cons member members inductionHypothesis =>
      rw [Json.keys_cons, List.nodup_cons] at distinct
      obtain ⟨next, first, rest⟩ := foldlM_cons_eq_ok_iff.mp taken
      have later := inductionHypothesis distinct.2 rest
      have now := sets first
      by_cases here : member.1 = key
      · subst here
        rw [if_pos rfl] at now
        rw [Json.lookup_eq_none_of_not_mem distinct.1, Option.elim_none] at later
        rw [List.lookup_cons, beq_self_eq_true, later]
        exact now
      · rw [if_neg here] at now
        rw [now] at later
        have different : (key == member.1) = false := by simpa using Ne.symm here
        rw [List.lookup_cons, different]
        exact later

/-- The first member with some property is the head, or it comes behind a head without it. -/
theorem exists_first_cons_iff
    {passes : Text × Value → Prop}
    {stops : Text → Value → Prop}
    {member : Text × Value} :
    (∃ front key value back, member :: members = front ++ (key, value) :: back ∧
        (∀ member ∈ front, passes member) ∧ stops key value) ↔
      stops member.1 member.2 ∨
        passes member ∧ ∃ front key value back, members = front ++ (key, value) :: back ∧
          (∀ member ∈ front, passes member) ∧ stops key value := by
  constructor
  · rintro ⟨front, key, value, back, members_eq, passed, stopped⟩
    cases front with
    | nil =>
        obtain ⟨rfl, _⟩ := List.cons_eq_cons.mp members_eq
        exact .inl stopped
    | cons first front =>
        obtain ⟨rfl, rfl⟩ := List.cons_eq_cons.mp members_eq
        rw [List.forall_mem_cons] at passed
        exact .inr ⟨passed.1, front, key, value, back, rfl, passed.2, stopped⟩
  · rintro (stopped | ⟨first, front, key, value, back, rfl, passed, stopped⟩)
    · exact ⟨[], member.1, member.2, members, rfl, fun _ => nofun, stopped⟩
    · exact ⟨member :: front, key, value, back, rfl, List.forall_mem_cons.mpr ⟨first, passed⟩,
        stopped⟩

/-- The first member that is refused decides the fault, whatever was set before. -/
theorem foldlM_eq_error_iff
    {fault : Fault}
    (uniform : ∀ {state other : σ} {key : Text} {value : Value} {fault : Fault},
      set state key value = .error fault → set other key value = .error fault) :
    members.foldlM (fun state member => set state member.1 member.2) before =
        .error fault ↔
      ∃ front key value back, members = front ++ (key, value) :: back ∧
        (∀ member ∈ front, ∀ fault, set before member.1 member.2 ≠ .error fault) ∧
        set before key value = .error fault := by
  induction members generalizing before with
  | nil => simp [pure, Except.pure]
  | cons member members inductionHypothesis =>
      rw [List.foldlM_cons, exists_first_cons_iff]
      cases taken : set before member.1 member.2 with
      | error early => simp [bind, Except.bind]
      | ok next =>
          -- What the members behind are refused for is the same as if nothing had been set.
          have same {key : Text} {value : Value} {fault : Fault} :
              set next key value = .error fault ↔ set before key value = .error fault :=
            ⟨uniform, uniform⟩
          have later := @inductionHypothesis next
          simp only [ne_eq, same] at later
          simpa [bind, Except.bind] using later

end Taking

/-! ## Groups of settings -/

/-- Members with the values that other members give to their keys. -/
def overlay (members given : List (Text × Value)) : List (Text × Value) :=
  members.map fun member => (member.1, (given.lookup member.1).getD member.2)

@[simp] theorem keys_overlay (members given : List (Text × Value)) :
    keys (overlay members given) = keys members := by
  simp [overlay, keys]

@[simp] theorem overlay_nil (members : List (Text × Value)) : overlay members [] = members := by
  simp [overlay]

theorem overlay_overlay
    {given : List (Text × Value)}
    {key : Text}
    (free : key ∉ keys given)
    (members : List (Text × Value))
    (value : Value) :
    overlay (overlay members [(key, value)]) given = overlay members ((key, value) :: given) := by
  unfold overlay
  rw [List.map_map]
  apply List.map_congr_left
  intro member _
  by_cases here : member.1 = key
  · simp [here, Json.lookup_eq_none_of_not_mem free]
  · have different : (member.1 == key) = false := by simpa using here
    simp [List.lookup_cons, different]

/-- A way to set the settings of a group by their keys. -/
structure SetsByKey
    {α : Type}
    (set : α → Text → Value → Except Fault α)
    (toMembers : α → List (Text × Value)) : Prop where
  /-- Exactly the keys of the settings can be set. -/
  accepts {settings : α} {key : Text} {value : Value} :
    (∃ after, set settings key value = .ok after) ↔ key ∈ keys (toMembers settings)
  /-- A setting that is set has the value, and the others are as before. -/
  overlays {settings after : α} {key : Text} {value : Value} :
    set settings key value = .ok after →
      toMembers after = overlay (toMembers settings) [(key, value)]

namespace SetsByKey

variable
  {α : Type}
  {set : α → Text → Value → Except Fault α}
  {toMembers : α → List (Text × Value)}
  (sets : SetsByKey set toMembers)
  {members : List (Text × Value)}
  {before after : α}
include sets

theorem accepts_foldlM :
    (∃ after, members.foldlM (fun settings member => set settings member.1 member.2) before =
        .ok after) ↔
      ∀ key ∈ keys members, key ∈ keys (toMembers before) := by
  induction members generalizing before with
  | nil => simp [pure, Except.pure]
  | cons member members inductionHypothesis =>
      have accepts : (∃ next, set before member.1 member.2 = .ok next) ↔
          member.1 ∈ keys (toMembers before) :=
        sets.accepts
      have keys_eq : ∀ next, set before member.1 member.2 = .ok next →
          keys (toMembers next) = keys (toMembers before) := fun next first => by
        rw [sets.overlays first, keys_overlay]
      rw [Json.keys_cons, List.forall_mem_cons, ← accepts]
      constructor
      · rintro ⟨after, taken⟩
        obtain ⟨next, first, rest⟩ := foldlM_cons_eq_ok_iff.mp taken
        exact ⟨⟨next, first⟩, keys_eq next first ▸ inductionHypothesis.mp ⟨after, rest⟩⟩
      · rintro ⟨⟨next, first⟩, later⟩
        obtain ⟨after, rest⟩ := inductionHypothesis.mpr ((keys_eq next first).symm ▸ later)
        exact ⟨after, foldlM_cons_eq_ok_iff.mpr ⟨next, first, rest⟩⟩

theorem overlays_foldlM
    (distinct : (keys members).Nodup)
    (taken : members.foldlM (fun settings member => set settings member.1 member.2) before =
      .ok after) :
    toMembers after = overlay (toMembers before) members := by
  induction members generalizing before with
  | nil =>
      obtain rfl : before = after := Except.ok.inj taken
      exact (overlay_nil _).symm
  | cons member members inductionHypothesis =>
      rw [Json.keys_cons, List.nodup_cons] at distinct
      obtain ⟨next, first, rest⟩ := foldlM_cons_eq_ok_iff.mp taken
      rw [inductionHypothesis distinct.2 rest, sets.overlays first,
        overlay_overlay distinct.1]

end SetsByKey

namespace CapnpSettings

theorem setsByKey : SetsByKey set toMembers where
  accepts {settings key value} := by
    unfold set
    split_ifs <;> simp_all [toMembers, keys]
  overlays {settings after key value} taken := by
    unfold set at taken
    split_ifs at taken <;> cases taken <;> simp_all [toMembers, overlay, List.lookup_cons]

theorem toMembers_injective
    {first second : CapnpSettings}
    (same : first.toMembers = second.toMembers) :
    first = second := by
  obtain ⟨_, _, _, _, _⟩ := first
  obtain ⟨_, _, _, _, _⟩ := second
  simpa [toMembers] using same

end CapnpSettings

namespace MsgpSettings

theorem setsByKey : SetsByKey set toMembers where
  accepts {settings key value} := by
    unfold set
    split_ifs <;> simp_all [toMembers, keys]
  overlays {settings after key value} taken := by
    unfold set at taken
    split_ifs at taken <;> cases taken <;> simp_all [toMembers, overlay, List.lookup_cons]

theorem toMembers_injective
    {first second : MsgpSettings}
    (same : first.toMembers = second.toMembers) :
    first = second := by
  obtain ⟨_, _⟩ := first
  obtain ⟨_, _⟩ := second
  simpa [toMembers] using same

end MsgpSettings
end SchemaCodegen
