import Mathlib.Data.List.Nodup
import SchemaCodegen.Json.Value

/-!
# Values up to the order of members

The order of the members of an object carries no meaning.  As long as no key is given
twice, what a key is given to is the same in every order, so values that differ in the
order of members alone, at whatever depth, are told apart by nothing else.
-/

namespace SchemaCodegen
namespace Json

/-- The keys of members. -/
def keys (members : List (Text × Value)) : List Text :=
  members.map Prod.fst

@[simp] theorem keys_nil : keys [] = [] := rfl

@[simp] theorem keys_cons (member : Text × Value) (members : List (Text × Value)) :
    keys (member :: members) = member.1 :: keys members := rfl

@[simp] theorem keys_append (first second : List (Text × Value)) :
    keys (first ++ second) = keys first ++ keys second :=
  List.map_append

/-! ## What keys are given to -/

section Lookup

variable {members others : List (Text × Value)} {key : Text} {value : Value}

theorem lookup_eq_none_of_not_mem (free : key ∉ keys members) :
    members.lookup key = none := by
  rw [List.lookup_eq_none_iff]
  intro member isMember
  have different : key ≠ member.1 := fun same =>
    free (same ▸ List.mem_map_of_mem isMember)
  simpa using different

theorem mem_of_lookup (given : members.lookup key = some value) : (key, value) ∈ members := by
  obtain ⟨front, back, rfl, _⟩ := List.lookup_eq_some_iff.mp given
  exact List.mem_append_right front List.mem_cons_self

theorem lookup_of_mem
    (distinct : (keys members).Nodup)
    (isMember : (key, value) ∈ members) :
    members.lookup key = some value := by
  induction members with
  | nil => contradiction
  | cons member members inductionHypothesis =>
      rw [keys_cons, List.nodup_cons] at distinct
      rcases List.mem_cons.mp isMember with rfl | later
      · exact List.lookup_cons_self
      · have different : (key == member.1) = false := by
          have notSame : key ≠ member.1 := fun same =>
            distinct.1 (same ▸ List.mem_map_of_mem later)
          simpa using notSame
        rw [List.lookup_cons, different]
        exact inductionHypothesis distinct.2 later

theorem lookup_eq_of_perm
    (distinct : (keys members).Nodup)
    (perm : members.Perm others)
    (key : Text) :
    members.lookup key = others.lookup key := by
  have distinctOthers : (keys others).Nodup := (perm.map Prod.fst).nodup_iff.mp distinct
  apply Option.ext
  intro value
  constructor
  · exact fun given => lookup_of_mem distinctOthers (perm.mem_iff.mp (mem_of_lookup given))
  · exact fun given => lookup_of_mem distinct (perm.mem_iff.mpr (mem_of_lookup given))

end Lookup

namespace Value

/-- No object inside of the value gives one key twice. -/
inductive HasDistinctKeys : Value → Prop
  /-- A value that holds no other values. -/
  | plain {value : Value} :
      value.kind ≠ .array →
      value.kind ≠ .object →
      HasDistinctKeys value
  /-- A list of such values. -/
  | array {items : List Value} :
      (∀ item ∈ items, HasDistinctKeys item) →
      HasDistinctKeys (.array items)
  /-- An object of such values with different keys. -/
  | object {members : List (Text × Value)} :
      (keys members).Nodup →
      (∀ member ∈ members, HasDistinctKeys member.2) →
      HasDistinctKeys (.object members)

theorem HasDistinctKeys.nodup
    {members : List (Text × Value)}
    (distinct : HasDistinctKeys (.object members)) :
    (keys members).Nodup := by
  cases distinct with
  | plain _ noObject => exact absurd rfl noObject
  | object nodup _ => exact nodup

theorem HasDistinctKeys.of_mem
    {members : List (Text × Value)}
    {member : Text × Value}
    (distinct : HasDistinctKeys (.object members))
    (isMember : member ∈ members) :
    HasDistinctKeys member.2 := by
  cases distinct with
  | plain _ noObject => exact absurd rfl noObject
  | object _ values => exact values member isMember

theorem HasDistinctKeys.item
    {items : List Value}
    {item : Value}
    (distinct : HasDistinctKeys (.array items))
    (isItem : item ∈ items) :
    HasDistinctKeys item := by
  cases distinct with
  | plain noArray _ => exact absurd rfl noArray
  | array values => exact values item isItem

/-- Two values differ in the order of members alone, anywhere inside of them. -/
inductive Reorders : Value → Value → Prop
  /-- Nothing differs. -/
  | refl (value : Value) : Reorders value value
  /-- One difference comes after another. -/
  | trans {first second third : Value} :
      Reorders first second →
      Reorders second third →
      Reorders first third
  /-- The members of an object are put into another order. -/
  | members {first second : List (Text × Value)} :
      first.Perm second →
      Reorders (.object first) (.object second)
  /-- The value of one member differs. -/
  | member {old new : Value}
      (front : List (Text × Value)) (key : Text) (back : List (Text × Value)) :
      Reorders old new →
      Reorders (.object (front ++ (key, old) :: back)) (.object (front ++ (key, new) :: back))
  /-- One item of a list differs. -/
  | item {old new : Value} (front back : List Value) :
      Reorders old new →
      Reorders (.array (front ++ old :: back)) (.array (front ++ new :: back))

/-- The same keys are given to values that differ in the order of members alone. -/
structure GivesAlike (first second : List (Text × Value)) : Prop where
  /-- The keys are the same. -/
  keys : (keys first).Perm (keys second)
  /-- What a key is given to differs in the order of members alone. -/
  lookup : (Json.keys first).Nodup →
    ∀ key, Option.Rel Reorders (first.lookup key) (second.lookup key)

theorem rel_refl (value? : Option Value) : Option.Rel Reorders value? value? := by
  cases value? with
  | none => exact .none
  | some value => exact .some (.refl value)

theorem rel_trans
    {first second third : Option Value}
    (early : Option.Rel Reorders first second)
    (late : Option.Rel Reorders second third) :
    Option.Rel Reorders first third := by
  cases early with
  | none =>
      cases late
      exact .none
  | some early =>
      cases late with
      | some late => exact .some (early.trans late)

theorem rel_getD
    {first second : Option Value}
    (rel : Option.Rel Reorders first second)
    (default : Value) :
    Reorders (first.getD default) (second.getD default) := by
  cases rel with
  | none => exact .refl default
  | some reorders => exact reorders

namespace GivesAlike

theorem refl (members : List (Text × Value)) : GivesAlike members members :=
  ⟨List.Perm.refl _, fun _ key => rel_refl (members.lookup key)⟩

theorem trans
    {first second third : List (Text × Value)}
    (early : GivesAlike first second)
    (late : GivesAlike second third) :
    GivesAlike first third where
  keys := early.keys.trans late.keys
  lookup distinct key :=
    rel_trans (early.lookup distinct key) (late.lookup (early.keys.nodup_iff.mp distinct) key)

theorem of_perm
    {first second : List (Text × Value)}
    (perm : first.Perm second) :
    GivesAlike first second where
  keys := perm.map Prod.fst
  lookup distinct key := lookup_eq_of_perm distinct perm key ▸ rel_refl (first.lookup key)

theorem of_member
    {old new : Value}
    (reorders : Reorders old new)
    (front : List (Text × Value))
    (key : Text)
    (back : List (Text × Value)) :
    GivesAlike (front ++ (key, old) :: back) (front ++ (key, new) :: back) where
  keys := by simp
  lookup _ other := by
    rw [List.lookup_append, List.lookup_append]
    cases front.lookup other with
    | some value => exact rel_refl (some value)
    | none =>
        rw [Option.none_or, Option.none_or, List.lookup_cons, List.lookup_cons]
        cases other == key with
        | true => exact .some reorders
        | false => exact rel_refl (back.lookup other)

end GivesAlike

namespace Reorders

variable {old new : Value}

theorem symm (reorders : Reorders old new) : Reorders new old := by
  induction reorders with
  | refl value => exact .refl value
  | trans _ _ early late => exact late.trans early
  | members perm => exact .members perm.symm
  | member front key back _ inductionHypothesis => exact .member front key back inductionHypothesis
  | item front back _ inductionHypothesis => exact .item front back inductionHypothesis

theorem kind_eq (reorders : Reorders old new) : new.kind = old.kind := by
  induction reorders with
  | refl value => rfl
  | trans _ _ early late => rw [late, early]
  | members perm => rfl
  | member front key back _ _ => rfl
  | item front back _ _ => rfl

/-- A value that holds no other values has nothing to put into another order. -/
theorem eq_of_plain
    (reorders : Reorders old new)
    (noArray : old.kind ≠ .array)
    (noObject : old.kind ≠ .object) :
    new = old := by
  induction reorders with
  | refl value => rfl
  | trans early late earlyHypothesis lateHypothesis =>
      obtain rfl := earlyHypothesis noArray noObject
      exact lateHypothesis noArray noObject
  | members perm => exact absurd rfl noObject
  | member front key back _ _ => exact absurd rfl noObject
  | item front back _ _ => exact absurd rfl noArray

theorem eq_string
    {text : Text}
    (reorders : Reorders (.string text) new) :
    new = .string text :=
  reorders.eq_of_plain nofun nofun

/-- An object stays an object, and gives its keys to the same values up to order. -/
theorem exists_eq_object
    {members : List (Text × Value)}
    (reorders : Reorders (.object members) new) :
    ∃ others, new = .object others ∧ GivesAlike members others := by
  generalize old_eq : Value.object members = old at reorders
  induction reorders generalizing members with
  | refl value => exact ⟨members, old_eq.symm, .refl members⟩
  | trans _ _ earlyHypothesis lateHypothesis =>
      obtain ⟨middle, middle_eq, early⟩ := earlyHypothesis old_eq
      obtain ⟨others, others_eq, late⟩ := lateHypothesis middle_eq.symm
      exact ⟨others, others_eq, early.trans late⟩
  | @members first second perm =>
      obtain rfl := Value.object.inj old_eq
      exact ⟨second, rfl, .of_perm perm⟩
  | member front key back reorders _ =>
      obtain rfl := Value.object.inj old_eq
      exact ⟨_, rfl, .of_member reorders front key back⟩
  | item front back _ _ => cases old_eq

theorem hasDistinctKeys
    (reorders : Reorders old new)
    (distinct : HasDistinctKeys old) :
    HasDistinctKeys new := by
  induction reorders with
  | refl value => exact distinct
  | trans _ _ early late => exact late (early distinct)
  | members perm =>
      refine .object ((perm.map Prod.fst).nodup_iff.mp distinct.nodup) fun member isMember => ?_
      exact distinct.of_mem (perm.mem_iff.mpr isMember)
  | @member old new front key back _ inductionHypothesis =>
      have nodup := distinct.nodup
      refine .object (by simpa using nodup) fun member isMember => ?_
      rw [List.mem_append, List.mem_cons] at isMember
      rcases isMember with isFront | rfl | isBack
      · exact distinct.of_mem (List.mem_append_left _ isFront)
      · exact inductionHypothesis (distinct.of_mem (List.mem_append_right front List.mem_cons_self))
      · exact distinct.of_mem (List.mem_append_right front (List.mem_cons_of_mem _ isBack))
  | @item old new front back _ inductionHypothesis =>
      refine .array fun item isItem => ?_
      rw [List.mem_append, List.mem_cons] at isItem
      rcases isItem with isFront | rfl | isBack
      · exact distinct.item (List.mem_append_left _ isFront)
      · exact inductionHypothesis (distinct.item (List.mem_append_right front List.mem_cons_self))
      · exact distinct.item (List.mem_append_right front (List.mem_cons_of_mem _ isBack))

end Reorders

end Value
end Json
end SchemaCodegen
