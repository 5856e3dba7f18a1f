import SchemaCodegen.Proofs.FileTree.Beside
import SchemaCodegen.Proofs.TextFile.AllOrNothing
import Mathlib.Logic.Relation

/-!
# Interrupted updates

An update takes several steps: it reads the file, creates a temporary one, fills it piece
by piece and moves it to where the path leads, or removes it when something fails.  It
may be interrupted between any two of them.  The path then still holds the old bytes or
already all of the new ones, and nothing but the temporary file has come to the tree.
-/

namespace SchemaCodegen
namespace TextFile

open FileTree

/-- What an update does next. -/
inductive Phase where
  /-- The file is read and its text transformed. -/
  | reading
  /-- A temporary file is created for the new text. -/
  | creating (content : Text)
  /-- The new text is encoded. -/
  | encoding (temporary : Temporary) (content : Text)
  /-- The rest of the bytes is written to the temporary file, which is moved then. -/
  | filling (temporary : Temporary) (content : Text) (rest : List UInt8)
  /-- The temporary file is removed because of a fault. -/
  | removing (temporary : Temporary) (fault : Fault)
  /-- Nothing. -/
  | ended (result : Except Fault Text)

/-- A file tree and what an update of it does next. -/
abbrev Stage := FileTree × Phase

variable
  (policy : Utf8.Policy)
  (path : Path)
  (transform : Text → Except Fault Text)

/-- One step of an update. -/
inductive Step : Stage → Stage → Prop
  /-- The file cannot be read. -/
  | unread {tree : FileTree} {fault : Fault} :
      read policy tree path = .error fault →
      Step (tree, .reading) (tree, .ended (.error fault))
  /-- The text cannot be transformed. -/
  | untransformed {tree : FileTree} {text : Text} {fault : Fault} :
      read policy tree path = .ok text →
      transform text = .error fault →
      Step (tree, .reading) (tree, .ended (.error fault))
  /-- The text is read and transformed. -/
  | transformed {tree : FileTree} {text content : Text} :
      read policy tree path = .ok text →
      transform text = .ok content →
      Step (tree, .reading) (tree, .creating content)
  /-- The temporary file cannot be created. -/
  | uncreated {tree : FileTree} {content : Text} {fault : AccessFault} :
      tree.createTemporary path = .error fault →
      Step (tree, .creating content) (tree, .ended (.error (.access fault)))
  /-- The temporary file is created. -/
  | created {tree created : FileTree} {content : Text} {temporary : Temporary} :
      tree.createTemporary path = .ok (temporary, created) →
      Step (tree, .creating content) (created, .encoding temporary content)
  /-- The new text cannot be encoded. -/
  | unencoded {tree : FileTree} {content : Text} {temporary : Temporary}
      {fault : Utf8.EncodeFault} :
      Utf8.encodeWith policy content = .error fault →
      Step (tree, .encoding temporary content)
        (tree, .removing temporary (.unencodable fault))
  /-- The new text is encoded. -/
  | encoded {tree : FileTree} {content : Text} {temporary : Temporary}
      {bytes : List UInt8} :
      Utf8.encodeWith policy content = .ok bytes →
      Step (tree, .encoding temporary content) (tree, .filling temporary content bytes)
  /-- A piece cannot be written. -/
  | unfilled {tree : FileTree} {content : Text} {temporary : Temporary}
      {rest : List UInt8} (fault : Fault) :
      Step (tree, .filling temporary content rest) (tree, .removing temporary fault)
  /-- A piece is written behind what the temporary file holds. -/
  | filled {tree : FileTree} {content : Text} {temporary : Temporary}
      {written piece rest : List UInt8} :
      tree.entry? temporary.location = some (.file written) →
      Step (tree, .filling temporary content (piece ++ rest))
        (tree.setContent temporary.location (written ++ piece),
          .filling temporary content rest)
  /-- The temporary file cannot be moved. -/
  | unmoved {tree : FileTree} {content : Text} {temporary : Temporary}
      {fault : AccessFault} :
      tree.replace temporary path = .error fault →
      Step (tree, .filling temporary content [])
        (tree, .removing temporary (.access fault))
  /-- The temporary file is moved. -/
  | moved {tree after : FileTree} {content : Text} {temporary : Temporary} :
      tree.replace temporary path = .ok after →
      Step (tree, .filling temporary content []) (after, .ended (.ok content))
  /-- The temporary file is removed. -/
  | removed {tree : FileTree} {temporary : Temporary} {fault : Fault} :
      Step (tree, .removing temporary fault)
        (tree.erase temporary.location, .ended (.error fault))

/-- An update gets from one stage to another in some steps. -/
abbrev Steps : Stage → Stage → Prop :=
  Relation.ReflTransGen (Step policy path transform)

/-! ## What has happened so far -/

/-- The text of the file is transformed into a new one. -/
def Transforms (before : FileTree) (content : Text) : Prop :=
  ∃ text, read policy before path = .ok text ∧ transform text = .ok content

/-- The temporary file of an update, holding some bytes, is the only change. -/
structure Filled
    (before : FileTree)
    (temporary : Temporary)
    (written : List UInt8)
    (during : FileTree) : Prop where
  /-- The temporary file could be created. -/
  created : ∃ created, before.createTemporary path = .ok (temporary, created)
  /-- It holds the bytes. -/
  during_eq : during = before.setContent temporary.location written

/-- The stages of an update that started with a given tree. -/
inductive Visits (before : FileTree) : Stage → Prop
  /-- Nothing has happened. -/
  | reading : Visits before (before, .reading)
  /-- Nothing has changed. -/
  | creating {content : Text} :
      Transforms policy path transform before content →
      Visits before (before, .creating content)
  /-- There is an empty temporary file. -/
  | encoding {during : FileTree} {temporary : Temporary} {content : Text} :
      Transforms policy path transform before content →
      Filled path before temporary [] during →
      Visits before (during, .encoding temporary content)
  /-- The temporary file holds the bytes that are not left to write. -/
  | filling {during : FileTree} {temporary : Temporary} {content : Text}
      {written rest : List UInt8} :
      Transforms policy path transform before content →
      Utf8.encodeWith policy content = .ok (written ++ rest) →
      Filled path before temporary written during →
      Visits before (during, .filling temporary content rest)
  /-- The temporary file holds some bytes. -/
  | removing {during : FileTree} {temporary : Temporary} {content : Text}
      {written : List UInt8} {fault : Fault} :
      Transforms policy path transform before content →
      Filled path before temporary written during →
      Visits before (during, .removing temporary fault)
  /-- Nothing has changed. -/
  | failed {fault : Fault} : Visits before (before, .ended (.error fault))
  /-- The path holds the new text. -/
  | succeeded {after : FileTree} {content : Text} {bytes : List UInt8}
      {parent : Location} {name : FileName} :
      Transforms policy path transform before content →
      Utf8.encodeWith policy content = .ok bytes →
      Replaces before path parent name bytes after →
      Visits before (after, .ended (.ok content))

variable {policy path transform}

namespace Filled

variable
  {before during : FileTree}
  {temporary : Temporary}
  {written : List UInt8}

theorem free (filled : Filled path before temporary written during) :
    before.entry? temporary.location = none := by
  obtain ⟨created, made⟩ := filled.created
  exact (createTemporary_eq_ok made).2.2.1

theorem entry?_eq (filled : Filled path before temporary written during) :
    during.entry? temporary.location = some (.file written) := by
  rw [filled.during_eq, setContent]
  exact entry?_insert_self (by simp [filled.free]) _

theorem entry?_of_ne
    (filled : Filled path before temporary written during)
    {location : Location}
    (different : location ≠ temporary.location) :
    during.entry? location = before.entry? location := by
  rw [filled.during_eq, setContent, entry?_insert_of_ne before different]

theorem grows (filled : Filled path before temporary written during) :
    Grows before during := by
  rw [filled.during_eq]
  exact Grows.insert_of_free filled.free _

theorem append
    (filled : Filled path before temporary written during)
    (piece : List UInt8) :
    Filled path before temporary (written ++ piece)
      (during.setContent temporary.location (written ++ piece)) := by
  refine ⟨filled.created, ?_⟩
  rw [filled.during_eq, setContent, setContent, setContent, insert_insert]

theorem erase_eq (filled : Filled path before temporary written during) :
    during.erase temporary.location = before := by
  rw [filled.during_eq, setContent]
  exact erase_insert (not_stores_of_entry?_eq_none filled.free) _

end Filled

theorem filled_of_createTemporary
    {before created : FileTree}
    {temporary : Temporary}
    (made : before.createTemporary path = .ok (temporary, created)) :
    Filled path before temporary [] created :=
  ⟨⟨created, made⟩, (createTemporary_eq_ok made).2.2.2⟩

/-- What has happened is known after every step if it was known before. -/
theorem Visits.step
    {before : FileTree}
    {stage next : Stage}
    (visits : Visits policy path transform before stage)
    (step : Step policy path transform stage next) :
    Visits policy path transform before next := by
  cases step with
  | unread =>
      cases visits
      exact .failed
  | untransformed =>
      cases visits
      exact .failed
  | transformed opened transformed =>
      cases visits
      exact .creating ⟨_, opened, transformed⟩
  | uncreated =>
      cases visits
      exact .failed
  | created made =>
      cases visits with
      | creating transforms => exact .encoding transforms (filled_of_createTemporary made)
  | unencoded =>
      cases visits with
      | encoding transforms filled => exact .removing transforms filled
  | @encoded _ _ _ bytes encoded =>
      cases visits with
      | encoding transforms filled =>
          rw [← List.nil_append bytes] at encoded
          exact .filling transforms encoded filled
  | unfilled fault =>
      cases visits with
      | filling transforms _ filled => exact .removing transforms filled
  | @filled _ _ _ _ piece rest held =>
      cases visits with
      | @filling _ _ _ written _ transforms encoded filled =>
          rw [filled.entry?_eq, Option.some.injEq, Entry.file.injEq] at held
          subst held
          rw [← List.append_assoc] at encoded
          exact .filling transforms encoded (filled.append piece)
  | unmoved =>
      cases visits with
      | filling transforms _ filled => exact .removing transforms filled
  | moved moved =>
      cases visits with
      | filling transforms encoded filled =>
          have free := filled.free
          rw [filled.during_eq] at moved
          obtain ⟨parent, name, replaces⟩ := replaces_of_replace free moved
          rw [List.append_nil] at encoded
          exact .succeeded transforms encoded replaces
  | removed =>
      cases visits with
      | removing _ filled =>
          rw [filled.erase_eq]
          exact .failed

/-- Whatever an update has come to, it is known what has happened. -/
theorem visits_of_steps
    {before : FileTree}
    {stage : Stage}
    (steps : Steps policy path transform (before, .reading) stage) :
    Visits policy path transform before stage := by
  induction steps with
  | refl => exact .reading
  | tail _ step inductionHypothesis => exact inductionHypothesis.step step

/-! ## What an interruption leaves behind -/

/-- The location that a path leads to. -/
def IsTarget (tree : FileTree) (path : Path) (location : Location) : Prop :=
  ∃ parent name, tree.place path = .ok (.named parent name) ∧ location = parent ++ [name]

/-- The location of the temporary file for a path, in the directory of its target. -/
structure IsTemporary (tree : FileTree) (path : Path) (location : Location) : Prop where
  /-- The temporary file is created there. -/
  created : ∃ temporary created,
    tree.createTemporary path = .ok (temporary, created) ∧ location = temporary.location
  /-- A path leads to a name in the same directory. -/
  beside : tree.IsProper → ∃ target, IsTarget tree path target ∧
    location.dropLast = target.dropLast

/-- An interrupted update has replaced all bytes or none, besides its temporary file. -/
structure Untorn
    (policy : Utf8.Policy)
    (path : Path)
    (transform : Text → Except Fault Text)
    (before during : FileTree) : Prop where
  /-- The path holds the old bytes or all of the new ones. -/
  target : during.read path = before.read path ∨
    ∃ content bytes, Transforms policy path transform before content ∧
      Utf8.encodeWith policy content = .ok bytes ∧ during.read path = .ok bytes
  /-- Everything else that was there is as before. -/
  others : ∀ location, before.entry? location ≠ none → ¬IsTarget before path location →
    during.entry? location = before.entry? location
  /-- Nothing but the temporary file has come to the tree. -/
  additional : ∀ location, before.entry? location = none →
    during.entry? location ≠ none → IsTemporary before path location

theorem untorn_refl (tree : FileTree) : Untorn policy path transform tree tree where
  target := Or.inl rfl
  others _ _ _ := rfl
  additional _ absent present := absurd absent present

/-- What is transformed is the text of a file. -/
theorem Transforms.exists_place
    {before : FileTree}
    {content : Text}
    (transforms : Transforms policy path transform before content) :
    ∃ old parent name, path.fault? = none ∧
      before.place path = .ok (.named parent name) ∧
      before.entry? (parent ++ [name]) = some (.file old) := by
  obtain ⟨text, opened, _⟩ := transforms
  obtain ⟨old, _, found, _, _⟩ := read_eq_ok opened
  obtain ⟨usable, parent, name, placed, held⟩ := read_eq_ok_iff.mp found
  exact ⟨old, parent, name, usable, placed, held⟩

theorem Filled.isTemporary
    {before during : FileTree}
    {temporary : Temporary}
    {written : List UInt8}
    {parent : Location}
    {name : FileName}
    (filled : Filled path before temporary written during)
    (placed : before.place path = .ok (.named parent name)) :
    IsTemporary before path temporary.location := by
  obtain ⟨created, made⟩ := filled.created
  refine ⟨⟨temporary, created, made, rfl⟩, fun proper => ?_⟩
  obtain ⟨free, location_eq, _⟩ := location_of_createTemporary proper placed made
  refine ⟨parent ++ [name], ⟨parent, name, placed, rfl⟩, ?_⟩
  rw [location_eq, List.dropLast_concat, List.dropLast_concat]

theorem Filled.untorn
    {before during : FileTree}
    {temporary : Temporary}
    {content : Text}
    {written : List UInt8}
    (filled : Filled path before temporary written during)
    (transforms : Transforms policy path transform before content) :
    Untorn policy path transform before during := by
  obtain ⟨old, parent, name, usable, placed, held⟩ := transforms.exists_place
  have unchanged : ∀ location, before.entry? location ≠ none →
      during.entry? location = before.entry? location := by
    intro location present
    apply filled.entry?_of_ne
    rintro rfl
    exact present filled.free
  refine ⟨Or.inl ?_, fun location present _ => unchanged location present, ?_⟩
  · have foundBefore : before.read path = .ok old :=
      read_eq_ok_iff.mpr ⟨usable, parent, name, placed, held⟩
    rw [foundBefore]
    refine read_eq_ok_iff.mpr ⟨usable, parent, name, filled.grows.place_eq placed, ?_⟩
    rw [unchanged _ (by simp [held]), held]
  · intro location absent present
    by_cases own : location = temporary.location
    · subst own
      exact filled.isTemporary placed
    · rw [filled.entry?_of_ne own] at present
      exact absurd absent present

theorem untorn_of_replaces
    {before after : FileTree}
    {content : Text}
    {bytes : List UInt8}
    {parent : Location}
    {name : FileName}
    (transforms : Transforms policy path transform before content)
    (encoded : Utf8.encodeWith policy content = .ok bytes)
    (replaces : Replaces before path parent name bytes after) :
    Untorn policy path transform before after := by
  obtain ⟨old, parent', name', _, placed, held⟩ := transforms.exists_place
  obtain ⟨rfl, rfl⟩ := eq_of_place replaces.placed placed
  have holds := replaces.onlyHolds.holds
  refine ⟨Or.inr ⟨content, bytes, transforms, encoded, holds⟩, ?_, ?_⟩
  · intro location _ elsewhere
    apply replaces.entry?_of_ne
    rintro rfl
    exact elsewhere ⟨parent, name, placed, rfl⟩
  · intro location absent present
    have different : location ≠ parent ++ [name] := by
      rintro rfl
      simp [held] at absent
    rw [replaces.entry?_of_ne different] at present
    exact absurd absent present

theorem Visits.untorn
    {before during : FileTree}
    {phase : Phase}
    (visits : Visits policy path transform before (during, phase)) :
    Untorn policy path transform before during := by
  cases visits with
  | reading => exact untorn_refl before
  | creating => exact untorn_refl before
  | encoding transforms filled => exact filled.untorn transforms
  | filling transforms _ filled => exact filled.untorn transforms
  | removing transforms filled => exact filled.untorn transforms
  | failed => exact untorn_refl before
  | succeeded transforms encoded replaces =>
      exact untorn_of_replaces transforms encoded replaces

/-! ## Updates that are not interrupted -/

/-- Writing a text is a way from its temporary file to the end. -/
theorem steps_write
    {tree after : FileTree}
    {content : Text}
    {written : Except Fault Unit}
    (write_eq : write policy tree path content = (after, written)) :
    Steps policy path transform (tree, .creating content)
      (after, .ended (written.map fun _ => content)) := by
  unfold write at write_eq
  cases made : tree.createTemporary path with
  | error fault =>
      simp only [made, Prod.mk.injEq] at write_eq
      obtain ⟨rfl, rfl⟩ := write_eq
      exact .single (.uncreated made)
  | ok result =>
      obtain ⟨temporary, created⟩ := result
      have filled := filled_of_createTemporary made
      have creates : Steps policy path transform (tree, .creating content)
          (created, .encoding temporary content) := .single (.created made)
      cases encoded : Utf8.encodeWith policy content with
      | error fault =>
          simp only [made, encoded, Prod.mk.injEq] at write_eq
          obtain ⟨rfl, rfl⟩ := write_eq
          exact (creates.tail (.unencoded encoded)).tail .removed
      | ok bytes =>
          have fills := creates.tail (.encoded encoded)
          rw [← List.append_nil bytes] at fills
          have full := fills.tail (.filled filled.entry?_eq)
          rw [List.nil_append] at full
          simp only [made, encoded] at write_eq
          cases moved : (created.setContent temporary.location bytes).replace temporary path with
          | error fault =>
              simp only [moved, Prod.mk.injEq] at write_eq
              obtain ⟨rfl, rfl⟩ := write_eq
              exact (full.tail (.unmoved moved)).tail .removed
          | ok replaced =>
              simp only [moved, Prod.mk.injEq] at write_eq
              obtain ⟨rfl, rfl⟩ := write_eq
              exact full.tail (.moved moved)

theorem steps_update
    (policy : Utf8.Policy)
    (before : FileTree)
    (path : Path)
    (transform : Text → Except Fault Text) :
    Steps policy path transform (before, .reading)
      ((update policy before path transform).1,
        .ended (update policy before path transform).2) := by
  unfold update
  cases opened : read policy before path with
  | error fault => exact .single (.unread opened)
  | ok text =>
      cases transformed : transform text with
      | error fault =>
          simp only [transformed]
          exact .single (.untransformed opened transformed)
      | ok content =>
          have reads : Steps policy path transform (before, .reading)
              (before, .creating content) := .single (.transformed opened transformed)
          simp only [transformed]
          rcases write_eq : write policy before path content with ⟨after, fault | done⟩
          · exact reads.trans (steps_write write_eq)
          · exact reads.trans (steps_write write_eq)

/--
An update goes through stages that all leave an untorn tree, whatever the tree, the path
and the transform are, wherever it fails and however its bytes are cut into pieces.
-/
theorem update_untorn
    (policy : Utf8.Policy)
    (before : FileTree)
    (path : Path)
    (transform : Text → Except Fault Text) :
    Steps policy path transform (before, .reading)
        ((update policy before path transform).1,
          .ended (update policy before path transform).2) ∧
      ∀ during phase,
        Steps policy path transform (before, .reading) (during, phase) →
          Untorn policy path transform before during :=
  ⟨steps_update policy before path transform,
    fun _ _ steps => (visits_of_steps steps).untorn⟩

end TextFile
end SchemaCodegen
