import Mathlib.Data.List.TakeWhile
import SchemaCodegen.Json.Reader

/-!
# Levels of containers

A scan that tells strings from the rest counts the brackets that are open at each place of
a text, whether the text is valid or not.  The reader lacks room for a container only
where the scan finds more levels open than there is room for.
-/

namespace SchemaCodegen
namespace Json

/-! ## The scan -/

/-- What a scan for containers stands in. -/
inductive Zone where
  /-- The text between strings. -/
  | outside
  /-- A string. -/
  | inside
  /-- A string, right behind a backslash. -/
  | escaped
deriving DecidableEq, Repr

/-- The zone behind a character. -/
def Zone.next (zone : Zone) (character : Char) : Zone :=
  match zone with
  | .outside => if character = '\x22' then .inside else .outside
  | .inside =>
      if character = '\x22' then .outside
      else if character = '\\' then .escaped
      else .inside
  | .escaped => .inside

/-- The number of open containers behind a character. -/
def Zone.levelBehind (zone : Zone) (level : Nat) (character : Char) : Nat :=
  match zone with
  | .outside =>
      if character = '\x7b' ∨ character = '[' then level + 1
      else if character = '\x7d' ∨ character = ']' then level - 1
      else level
  | .inside | .escaped => level

/-- The largest number of open containers that a scan comes to. -/
def deepestFrom : Zone → (level : Nat) → List Char → Nat
  | _, level, [] => level
  | zone, level, character :: rest =>
      max level (deepestFrom (zone.next character) (zone.levelBehind level character) rest)

/-- The levels of containers in a text. -/
def levels (characters : List Char) : Nat :=
  deepestFrom .outside 0 characters

theorem deepestFrom_next_le (zone : Zone) (level : Nat) (character : Char) (rest : List Char) :
    deepestFrom (zone.next character) (zone.levelBehind level character) rest ≤
      deepestFrom zone level (character :: rest) :=
  Nat.le_max_right ..

theorem le_deepestFrom (zone : Zone) (level : Nat) (characters : List Char) :
    level ≤ deepestFrom zone level characters := by
  cases characters with
  | nil => exact Nat.le_refl level
  | cons character rest => exact Nat.le_max_left ..

/-- Characters that stay in a string may be passed over. -/
theorem deepestFrom_inside_append_le
    {front : List Char}
    (stays : ∀ character ∈ front, character ≠ '\x22' ∧ character ≠ '\\')
    (level : Nat)
    (back : List Char) :
    deepestFrom .inside level back ≤ deepestFrom .inside level (front ++ back) := by
  induction front with
  | nil => exact Nat.le_refl _
  | cons character front inductionHypothesis =>
      rw [List.forall_mem_cons] at stays
      have step := deepestFrom_next_le .inside level character (front ++ back)
      rw [Zone.next, if_neg stays.1.1, if_neg stays.1.2] at step
      exact Nat.le_trans (inductionHypothesis stays.2) step

/-! ## Passing over a text -/

/--
Behind the first text, with so many of its containers closed, the scan finds nothing
deeper in the second one than it does from the start of the first.
-/
def Passes (closed : Nat) (before after : List Char) : Prop :=
  ∀ level, deepestFrom .outside level after ≤ deepestFrom .outside (level + closed) before

/-- Characters that open and close neither strings nor containers. -/
def IsNeutral (character : Char) : Prop :=
  character ∉ ['\x22', '\x7b', '\x7d', '[', ']']

instance (character : Char) : Decidable (IsNeutral character) :=
  inferInstanceAs (Decidable (character ∉ _))

namespace Passes

variable {before middle after : List Char}

theorem refl (characters : List Char) : Passes 0 characters characters :=
  fun _ => Nat.le_refl _

theorem trans
    {early late : Nat}
    (first : Passes early before middle)
    (second : Passes late middle after) :
    Passes (late + early) before after := fun level =>
  Nat.le_trans (second level) (Nat.add_assoc level late early ▸ first (level + late))

/-- A closing bracket closes one container. -/
theorem close
    {bracket : Char}
    (closes : bracket = '\x7d' ∨ bracket = ']')
    (rest : List Char) :
    Passes 1 (bracket :: rest) rest := by
  intro level
  have step := deepestFrom_next_le .outside (level + 1) bracket rest
  rcases closes with rfl | rfl
  all_goals exact step

theorem cons
    {character : Char}
    (neutral : IsNeutral character)
    (rest : List Char) :
    Passes 0 (character :: rest) rest := by
  intro level
  have step := deepestFrom_next_le .outside level character rest
  obtain ⟨noQuote, noOpening, noClosing, noLeft, noRight⟩ :
      character ≠ '\x22' ∧ character ≠ '\x7b' ∧ character ≠ '\x7d' ∧
        character ≠ '[' ∧ character ≠ ']' := by
    simpa [IsNeutral] using neutral
  rwa [Zone.next, if_neg noQuote, Zone.levelBehind, if_neg (by simp [noOpening, noLeft]),
    if_neg (by simp [noClosing, noRight])] at step

/-- Characters that open and close nothing may be passed over. -/
theorem drop
    {front : List Char}
    (isFront : front <+: before)
    (neutral : ∀ character ∈ front, IsNeutral character) :
    Passes 0 before (before.drop front.length) := by
  obtain ⟨back, rfl⟩ := isFront
  rw [List.drop_left]
  induction front with
  | nil => exact refl back
  | cons character front inductionHypothesis =>
      rw [List.forall_mem_cons] at neutral
      exact (cons neutral.1 _).trans (inductionHypothesis neutral.2)

theorem drop_add
    {first second : Nat}
    (early : Passes 0 before (before.drop first))
    (late : Passes 0 (before.drop first) ((before.drop first).drop second)) :
    Passes 0 before (before.drop (first + second)) := by
  rw [← List.drop_drop]
  exact early.trans late

theorem skipBlanks (cursor : Cursor) : Passes 0 cursor.rest cursor.skipBlanks.rest := by
  refine drop (List.takeWhile_prefix _) fun character isTaken => ?_
  have blank : Cursor.isBlank character = true := List.mem_takeWhile_imp isTaken
  simp only [Cursor.isBlank, Bool.or_eq_true, beq_iff_eq] at blank
  obtain ((rfl | rfl) | rfl) | rfl := blank <;> decide

/-- A separator and the blanks behind it may be passed over. -/
theorem separator
    {cursor : Cursor}
    {character : Char}
    {rest : List Char}
    (rest_eq : cursor.rest = character :: rest)
    (neutral : IsNeutral character) :
    Passes 0 cursor.rest (cursor.advance 1).skipBlanks.rest := by
  have passes := skipBlanks (cursor.advance 1)
  rw [Cursor.advance, rest_eq] at passes ⊢
  exact (cons neutral rest).trans passes

end Passes

/-! ## What readers need -/

/--
A reader with room for some more containers: behind what it reads the scan finds nothing
deeper, with so many containers closed, and it lacks room only where the scan finds more.
-/
structure Measures
    {α : Type}
    (zone : Zone)
    (room closed : Nat)
    (before : List Char)
    (result : Except Stop (α × Cursor)) : Prop where
  /-- Nothing deeper comes behind what is read. -/
  passes {value : α} {after : Cursor} :
    result = .ok (value, after) →
      ∀ level, deepestFrom .outside level after.rest ≤ deepestFrom zone (level + closed) before
  /-- Room is lacking only where there are more levels. -/
  lacks {container : Container} :
    result = .error (.tooDeep container) →
      ∀ level, level + room < deepestFrom zone level before

namespace Measures

variable
  {α β : Type}
  {zone : Zone}
  {room closed : Nat}
  {before : List Char}
  {result : Except Stop (α × Cursor)}

theorem ok
    {value : α}
    {after : Cursor}
    (passes : ∀ level,
      deepestFrom .outside level after.rest ≤ deepestFrom zone (level + closed) before) :
    Measures zone room closed before (.ok (value, after)) where
  passes read := by
    obtain ⟨-, rfl⟩ := Prod.mk.inj (Except.ok.inj read)
    exact passes
  lacks := nofun

theorem malformed (complaint : Complaint) (offset : Nat) :
    Measures zone room closed before
      (.error (.malformed complaint offset) : Except Stop (α × Cursor)) where
  passes := nofun
  lacks := nofun

theorem failed
    {stop : Stop}
    {other : Nat}
    (measures : Measures zone room closed before (.error stop : Except Stop (α × Cursor))) :
    Measures zone room other before (.error stop : Except Stop (β × Cursor)) where
  passes := nofun
  lacks lacks := measures.lacks (congrArg _ (Except.error.inj lacks))

theorem map
    {make : α × Cursor → β × Cursor}
    (keeps : ∀ read, (make read).2 = read.2)
    (measures : Measures zone room closed before result) :
    Measures zone room closed before (result.map make) := by
  cases result with
  | error stop => exact measures.failed
  | ok read =>
      refine ⟨fun {value after} made => ?_, nofun⟩
      have after_eq : after = read.2 := by
        rw [← keeps read, Except.ok.inj made]
      exact after_eq ▸ measures.passes rfl

/-- What is read further on is measured from the start as well. -/
theorem earlier
    {first : Zone}
    {front : List Char}
    (passed : ∀ level, deepestFrom zone level before ≤ deepestFrom first level front)
    (measures : Measures zone room closed before result) :
    Measures first room closed front result where
  passes read level := Nat.le_trans (measures.passes read level) (passed (level + closed))
  lacks read level := Nat.lt_of_lt_of_le (measures.lacks read level) (passed level)

/-- What is read behind a value and some blanks is measured from the value on. -/
theorem behind
    {value : α}
    {after : Cursor}
    {late : Except Stop (β × Cursor)}
    (early : Measures .outside room 0 before result)
    (read : result = .ok (value, after))
    (measures : Measures .outside room closed after.skipBlanks.rest late) :
    Measures .outside room closed before late :=
  measures.earlier (Passes.trans (early.passes read) (.skipBlanks after))

end Measures

/-! ## Strings -/

theorem forall_isSome_of_foldlM
    {α β γ : Type}
    {take : α → γ → α}
    {value? : β → Option γ}
    {items : List β}
    {start last : α}
    (taken : items.foldlM (fun state item => (value? item).map (take state)) start =
      some last) :
    ∀ item ∈ items, (value? item).isSome := by
  induction items generalizing start with
  | nil => exact fun _ => nofun
  | cons item items inductionHypothesis =>
      rw [List.foldlM_cons, Option.bind_eq_bind, Option.bind_eq_some_iff] at taken
      obtain ⟨next, first, rest⟩ := taken
      rw [List.forall_mem_cons]
      refine ⟨?_, inductionHypothesis rest⟩
      rw [← @Option.isSome_map _ _ (take start), first]
      rfl

/-- The digits of a numeric escape are hexadecimal ones. -/
theorem stays_of_fourDigits?
    {characters : List Char}
    {unit : Nat}
    (spelled : fourDigits? characters = some unit) :
    ∀ digit ∈ characters.take 4, digit ≠ '\x22' ∧ digit ≠ '\\' := by
  intro digit isTaken
  have isDigit : (Hexadecimal.digitValue? digit).isSome :=
    forall_isSome_of_foldlM spelled digit isTaken
  constructor <;> rintro rfl <;> revert isDigit <;> decide

theorem readNumericEscape_eq_ok
    {offset length : Nat}
    {characters : List Char}
    {value : Symbol}
    (read : readNumericEscape offset characters = .ok (value, length)) :
    (∃ unit, fourDigits? characters = some unit ∧ length = 5) ∨
      ∃ following unit low,
        fourDigits? characters = some unit ∧
        characters.drop 4 = '\\' :: 'u' :: following ∧
        fourDigits? following = some low ∧ length = 11 := by
  unfold readNumericEscape at read
  split at read
  · contradiction
  · split at read
    · contradiction
    · next unit spelled =>
        split at read
        · next following _ rest_eq =>
            split at read
            · cases read
              exact .inl ⟨unit, spelled, rfl⟩
            · split at read
              · contradiction
              · next low lowSpelled =>
                  split at read
                  · have length_eq := (Prod.mk.inj (Except.ok.inj read)).2.symm
                    exact .inr ⟨following, unit, low, spelled, rest_eq, lowSpelled, length_eq⟩
                  · cases read
                    exact .inl ⟨unit, spelled, rfl⟩
        · cases read
          exact .inl ⟨unit, spelled, rfl⟩

/-- The digits of a numeric escape neither close the string nor start another escape. -/
theorem deepestFrom_fourDigits_le
    {characters : List Char}
    {unit : Nat}
    (spelled : fourDigits? characters = some unit)
    (level : Nat) :
    deepestFrom .inside level (characters.drop 4) ≤
      deepestFrom .escaped level ('u' :: characters) := by
  have passed := deepestFrom_inside_append_le (stays_of_fourDigits? spelled) level
    (characters.drop 4)
  rw [List.take_append_drop] at passed
  exact Nat.le_trans passed (deepestFrom_next_le .escaped level 'u' characters)

theorem deepestFrom_readEscape_le
    {opening offset length : Nat}
    {characters : List Char}
    {value : Symbol}
    (read : readEscape opening offset characters = .ok (value, length))
    (level : Nat) :
    deepestFrom .inside level (characters.drop length) ≤
      deepestFrom .escaped level characters := by
  unfold readEscape at read
  split at read
  · contradiction
  · next characters =>
      rcases readNumericEscape_eq_ok read with
        ⟨unit, spelled, rfl⟩ | ⟨following, unit, low, spelled, rest_eq, lowSpelled, rfl⟩
      · exact deepestFrom_fourDigits_le spelled level
      · -- A pair of escapes: the second one starts where the digits of the first end.
        have first := deepestFrom_fourDigits_le spelled level
        have second := deepestFrom_fourDigits_le lowSpelled level
        rw [rest_eq] at first
        have between := deepestFrom_next_le .inside level '\\' ('u' :: following)
        have behind_eq : ('u' :: characters).drop 11 = following.drop 4 := by
          simpa using congrArg (List.drop 6) rest_eq
        rw [behind_eq]
        exact Nat.le_trans second (Nat.le_trans between first)
  · next character rest _ =>
      split at read
      · cases read
        exact deepestFrom_next_le .escaped level character rest
      · contradiction

theorem exists_eq_malformed_of_readEscape
    {opening offset : Nat}
    {characters : List Char}
    {stop : Stop}
    (failed : readEscape opening offset characters = .error stop) :
    ∃ complaint place, stop = .malformed complaint place := by
  unfold readEscape readNumericEscape at failed
  repeat' split at failed
  all_goals cases failed
  all_goals exact ⟨_, _, rfl⟩

theorem measures_readCharacters (room opening consumed offset : Nat) (characters : List Char) :
    Measures .inside room 0 (characters.drop consumed)
      (readCharacters opening consumed offset characters) := by
  fun_induction readCharacters opening consumed offset characters with
  | case1 => exact .malformed _ _
  | case2 consumed offset _ rest inductionHypothesis => exact inductionHypothesis
  | case3 offset rest => exact .ok fun level => deepestFrom_next_le .inside level '\x22' rest
  | case4 offset rest stop failed =>
      obtain ⟨complaint, place, rfl⟩ := exists_eq_malformed_of_readEscape failed
      exact .malformed complaint place
  | case5 offset rest value length escape _ inductionHypothesis =>
      refine .earlier (fun level => ?_) (.map (fun _ => rfl) inductionHypothesis)
      exact Nat.le_trans (deepestFrom_readEscape_le escape level)
        (deepestFrom_next_le .inside level '\\' rest)
  | case6 offset character rest _ _ _ => exact .malformed _ _
  | case7 offset character rest noQuote noBackslash _ inductionHypothesis =>
      refine .earlier (fun level => ?_) (.map (fun _ => rfl) inductionHypothesis)
      have step := deepestFrom_next_le .inside level character rest
      rwa [Zone.next, if_neg noQuote, if_neg noBackslash] at step

theorem measures_readString
    {cursor : Cursor}
    (room : Nat)
    (opens : cursor.rest.head? = some '\x22') :
    Measures .outside room 0 cursor.rest (readString cursor) := by
  obtain ⟨rest, rest_eq⟩ := List.head?_eq_some_iff.mp opens
  unfold readString
  rw [rest_eq]
  refine .earlier (fun level => ?_) (measures_readCharacters ..)
  exact deepestFrom_next_le .outside level '\x22' rest

/-! ## Words and numbers -/

theorem isNeutral_of_isDigit
    {character : Char}
    (isDigit : character.isDigit = true) :
    IsNeutral character := by
  intro special
  have noDigit : (['\x22', '\x7b', '\x7d', '[', ']'].any Char.isDigit) = false := by decide
  have someDigit := List.any_eq_true.mpr ⟨character, special, isDigit⟩
  exact Bool.false_ne_true (noDigit.symm.trans someDigit)

theorem passes_takeWhile_isDigit (characters : List Char) :
    Passes 0 characters (characters.drop (characters.takeWhile Char.isDigit).length) :=
  .drop (List.takeWhile_prefix _) fun _ isTaken =>
    isNeutral_of_isDigit (List.mem_takeWhile_imp isTaken)

theorem passes_wholeDigits (characters : List Char) :
    Passes 0 characters (characters.drop (wholeDigits characters).length) := by
  unfold wholeDigits
  split
  · exact .cons (by decide) _
  · exact passes_takeWhile_isDigit characters

theorem passes_fractionDigits
    {characters : List Char}
    (given : (fractionDigits characters).isEmpty ≠ true) :
    Passes 0 characters (characters.drop ((fractionDigits characters).length + 1)) := by
  unfold fractionDigits at given ⊢
  split at given
  · exact (Passes.cons (by decide) _).trans (passes_takeWhile_isDigit _)
  · exact absurd rfl given

theorem passes_exponentPart?
    {characters : List Char}
    {exponent : Int}
    {length : Nat}
    (given : exponentPart? characters = some (exponent, length)) :
    Passes 0 characters (characters.drop length) := by
  unfold exponentPart? at given
  split at given
  · contradiction
  · next mark characters =>
      split at given
      · next isMark =>
          extract_lets sign digits at given
          have markNeutral : IsNeutral mark := by
            rcases isMark with rfl | rfl <;> decide
          have signNeutral : ∀ character ∈ sign, IsNeutral character := by
            intro character isSign
            have plusOrMinus := List.mem_takeWhile_imp isSign
            simp only [Bool.or_eq_true, beq_iff_eq] at plusOrMinus
            rcases plusOrMinus with rfl | rfl <;> decide
          have toSign : Passes 0 (mark :: characters) ((mark :: characters).drop 1) :=
            .cons markNeutral characters
          have toDigits := toSign.drop_add (.drop (List.takeWhile_prefix _) signNeutral)
          split at given
          · contradiction
          · obtain ⟨-, rfl⟩ := Prod.mk.inj (Option.some.inj given)
            refine toDigits.drop_add ?_
            rw [← List.drop_drop]
            exact passes_takeWhile_isDigit _
      · contradiction

theorem measures_readNumber (room : Nat) (cursor : Cursor) :
    Measures .outside room 0 cursor.rest (readNumber cursor) := by
  unfold readNumber
  -- A number is read part by part, and no part of it opens or closes anything.
  extract_lets negative sign whole afterWhole fraction afterFraction magnitude
  have toSign : Passes 0 cursor.rest (cursor.rest.drop sign) := by
    by_cases isNegative : cursor.rest.head? = some '-'
    · obtain ⟨rest, rest_eq⟩ := List.head?_eq_some_iff.mp isNegative
      have sign_eq : sign = 1 := if_pos isNegative
      rw [rest_eq, sign_eq]
      exact .cons (by decide) rest
    · have sign_eq : sign = 0 := if_neg isNegative
      rw [sign_eq]
      exact .refl _
  have toWhole : Passes 0 cursor.rest afterWhole.rest :=
    toSign.drop_add (passes_wholeDigits _)
  have toFraction : Passes 0 cursor.rest afterFraction.rest := by
    by_cases whole : fraction.isEmpty = true
    · have stays : afterFraction = afterWhole := if_pos whole
      exact stays ▸ toWhole
    · have goesOn : afterFraction = afterWhole.advance (fraction.length + 1) := if_neg whole
      exact goesOn ▸ toWhole.trans (passes_fractionDigits whole)
  split
  · exact .malformed _ _
  · split
    · next exponent length given =>
        exact .ok (toFraction.trans (passes_exponentPart? given))
    · split
      · split
        · exact ⟨nofun, nofun⟩
        · exact .ok toWhole
      · exact .ok toFraction

theorem neutral_of_mem_words
    {word : List Char}
    {value : Value}
    (isWord : (word, value) ∈ words) :
    ∀ character ∈ word, IsNeutral character := by
  have neutral :
      (words.all fun word => word.1.all fun character => IsNeutral character) = true := by
    decide
  have wordNeutral := List.all_eq_true.mp neutral (word, value) isWord
  simpa using wordNeutral

theorem measures_readPlain (room : Nat) (cursor : Cursor) :
    Measures .outside room 0 cursor.rest (readPlain cursor) := by
  unfold readPlain
  split
  · next word value found =>
      obtain ⟨starts, _⟩ := List.find?_eq_some_iff_append.mp found
      have isPrefix : word <+: cursor.rest := List.isPrefixOf_iff_prefix.mp starts
      exact .ok (Passes.drop isPrefix (neutral_of_mem_words (List.mem_of_find?_eq_some found)))
  · exact measures_readNumber room cursor

/-! ## Values -/

/-- An opening bracket opens one container. -/
theorem deepestFrom_opening_le
    {bracket : Char}
    (opens : bracket = '\x7b' ∨ bracket = '[')
    (level : Nat)
    (rest : List Char) :
    deepestFrom .outside (level + 1) rest ≤ deepestFrom .outside level (bracket :: rest) := by
  have step := deepestFrom_next_le .outside level bracket rest
  rcases opens with rfl | rfl
  all_goals exact step

theorem Measures.opened
    {α : Type}
    {room : Nat}
    {bracket : Char}
    {rest : List Char}
    {result : Except Stop (α × Cursor)}
    (opens : bracket = '\x7b' ∨ bracket = '[')
    (measures : Measures .outside room 1 rest result) :
    Measures .outside (room + 1) 0 (bracket :: rest) result where
  passes read level :=
    Nat.le_trans (measures.passes read level) (deepestFrom_opening_le opens level rest)
  lacks lacks level := by
    have deeper := measures.lacks lacks (level + 1)
    have opened := deepestFrom_opening_le opens level rest
    omega

theorem measures_tooDeep
    {α : Type}
    {closed : Nat}
    {bracket : Char}
    (opens : bracket = '\x7b' ∨ bracket = '[')
    (container : Container)
    (rest : List Char) :
    Measures .outside 0 closed (bracket :: rest)
      (.error (.tooDeep container) : Except Stop (α × Cursor)) := by
  refine ⟨nofun, fun _ level => ?_⟩
  exact Nat.lt_of_lt_of_le (le_deepestFrom .outside (level + 1) rest)
    (deepestFrom_opening_le opens level rest)

/-- A container that is empty or read by one of the readers of its content. -/
theorem measures_container
    {α : Type}
    {room : Nat}
    {cursor inside : Cursor}
    {opening closing : Char}
    {rest : List Char}
    {empty : Value}
    {result : Except Stop (α × Cursor)}
    {make : α × Cursor → Value × Cursor}
    (rest_eq : cursor.rest = opening :: rest)
    (opens : opening = '\x7b' ∨ opening = '[')
    (closes : closing = '\x7d' ∨ closing = ']')
    (inside_eq : inside = (cursor.advance 1).skipBlanks)
    (keeps : ∀ read, (make read).2 = read.2)
    (measures : Measures .outside room 1 inside.rest result) :
    Measures .outside (room + 1) 0 cursor.rest
      (if inside.rest.head? = some closing then .ok (empty, inside.advance 1)
        else result.map make) := by
  have toInside : Passes 0 rest inside.rest := by
    have passes := Passes.skipBlanks (cursor.advance 1)
    rwa [← inside_eq, Cursor.advance, rest_eq] at passes
  rw [rest_eq]
  refine .opened opens (.earlier toInside ?_)
  split
  · next closed =>
      obtain ⟨tail, tail_eq⟩ := List.head?_eq_some_iff.mp closed
      rw [Cursor.advance, tail_eq]
      exact .ok (Passes.close closes tail)
  · exact .map keeps measures

section Step

variable
  {fuel : Nat}
  (values : ∀ room cursor, Measures .outside room 0 cursor.rest (readValue fuel room cursor))
  (items : ∀ room cursor, Measures .outside room 1 cursor.rest (readItems fuel room cursor))
  (members : ∀ room before cursor,
    Measures .outside room 1 cursor.rest (readMembers fuel room before cursor))

include items members in
theorem measures_readValue_succ (room : Nat) (cursor : Cursor) :
    Measures .outside room 0 cursor.rest (readValue (fuel + 1) room cursor) := by
  unfold readValue
  split
  · next rest rest_eq =>
      exact .map (fun _ => rfl) (measures_readString _ (by rw [rest_eq]; rfl))
  · next rest rest_eq =>
      rw [rest_eq]
      exact measures_tooDeep (.inl rfl) .object rest
  · next rest room rest_eq =>
      exact measures_container rest_eq (.inl rfl) (.inl rfl) rfl (fun _ => rfl) (members room [] _)
  · next rest rest_eq =>
      rw [rest_eq]
      exact measures_tooDeep (.inr rfl) .array rest
  · next rest room rest_eq =>
      exact measures_container rest_eq (.inr rfl) (.inr rfl) rfl (fun _ => rfl) (items room _)
  · exact measures_readPlain _ cursor

include values items in
theorem measures_readItems_succ (room : Nat) (cursor : Cursor) :
    Measures .outside room 1 cursor.rest (readItems (fuel + 1) room cursor) := by
  unfold readItems
  have value := values room cursor
  split
  · next stop failed => exact .failed (failed ▸ value)
  · next item after read =>
      refine value.behind read ?_
      dsimp only
      split
      · next rest rest_eq =>
          rw [Cursor.advance, rest_eq]
          exact .ok (Passes.close (.inr rfl) rest)
      · next rest rest_eq =>
          exact .earlier (Passes.separator rest_eq (by decide)) (.map (fun _ => rfl) (items room _))
      · exact .malformed _ _

include values members in
theorem measures_readMembers_succ
    (room : Nat)
    (before : List (Text × Value))
    (cursor : Cursor) :
    Measures .outside room 1 cursor.rest (readMembers (fuel + 1) room before cursor) := by
  unfold readMembers
  split
  · exact .malformed _ _
  · next isQuote =>
      have key := measures_readString room (not_not.mp isQuote)
      split
      · next stop failed => exact .failed (failed ▸ key)
      · next name after read =>
          refine key.behind read ?_
          extract_lets separator
          split
          · exact .malformed _ _
          · next isColon =>
              obtain ⟨rest, rest_eq⟩ := List.head?_eq_some_iff.mp (not_not.mp isColon)
              refine .earlier (Passes.separator rest_eq (by decide)) ?_
              have value := values room (separator.advance 1).skipBlanks
              split
              · next stop failed => exact .failed (failed ▸ value)
              · next given after read =>
                  refine value.behind read ?_
                  extract_lets put next
                  split
                  · next rest rest_eq =>
                      rw [Cursor.advance, rest_eq]
                      exact .ok (Passes.close (.inl rfl) rest)
                  · next rest rest_eq =>
                      exact .earlier (Passes.separator rest_eq (by decide)) (members room put _)
                  · exact .malformed _ _

end Step

/--
All three readers measure up, whatever fuel they have.  They call each other with less of
it, so one induction carries them together.
-/
theorem measures_read (fuel : Nat) :
    (∀ room cursor, Measures .outside room 0 cursor.rest (readValue fuel room cursor)) ∧
    (∀ room cursor, Measures .outside room 1 cursor.rest (readItems fuel room cursor)) ∧
    ∀ room members cursor,
      Measures .outside room 1 cursor.rest (readMembers fuel room members cursor) := by
  induction fuel with
  | zero =>
      exact ⟨fun _ _ => .malformed _ _, fun _ _ => .malformed _ _, fun _ _ _ => .malformed _ _⟩
  | succ fuel inductionHypothesis =>
      obtain ⟨values, items, members⟩ := inductionHypothesis
      exact ⟨measures_readValue_succ items members, measures_readItems_succ values items,
        measures_readMembers_succ values members⟩

theorem lt_levels_of_readAll
    {room : Nat}
    {characters : List Char}
    {container : Container}
    (failed : readAll room characters = .error (.tooDeep container)) :
    room < levels characters := by
  unfold readAll at failed
  extract_lets start at failed
  split at failed
  · cases failed
  · split at failed
    · next stop valueFailed =>
        obtain rfl := Except.error.inj failed
        have measures := (measures_read (2 * characters.length + 2)).1 room start
        have deep : 0 + room < deepestFrom .outside 0 start.rest :=
          measures.lacks valueFailed 0
        have blanks : deepestFrom .outside 0 start.rest ≤ levels characters :=
          Passes.skipBlanks ⟨0, characters⟩ 0
        omega
    · extract_lets last at failed
      split at failed <;> cases failed

/-- A text is nested too deeply only if it has more levels of containers than are followed. -/
theorem limit_lt_levels_of_read
    {characters : List Char}
    {container : Container}
    (failed : read characters = .error (.tooDeep container)) :
    Nesting.limit < levels characters := by
  unfold read readWithin at failed
  split at failed
  · contradiction
  · next stop stopped =>
      cases stop with
      | tooDeep container => exact lt_levels_of_readAll stopped
      | malformed complaint offset => cases failed
      | longInteger digits => cases failed

end Json
end SchemaCodegen
