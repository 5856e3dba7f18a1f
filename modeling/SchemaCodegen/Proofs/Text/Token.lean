import SchemaCodegen.Text.Symbol

/-!
# Tokens

A text falls apart into maximal runs of identifier symbols and single other
symbols.  There is one way only to do so: tokens that do not touch are the tokens
of the text that they spell.  So runs can be changed one by one, as long as they
stay runs, and nothing around them moves.
-/

namespace SchemaCodegen
namespace Text

/-- A part of a text that is renamed as a whole or not at all. -/
inductive Token where
  /-- A run of identifier symbols. -/
  | identifier (run : Text)
  /-- A symbol outside of identifiers. -/
  | other (symbol : Symbol)
deriving DecidableEq, Repr

namespace Token

/-- What a token looks like in a text. -/
def text : Token → Text
  | identifier run => run
  | other symbol => [symbol]

/-- Changes a run and keeps any other symbol. -/
def mapRun (change : Text → Text) : Token → Token
  | identifier run => identifier (change run)
  | other symbol => other symbol

@[simp] theorem mapRun_id (token : Token) : token.mapRun (fun run => run) = token := by
  cases token <;> rfl

@[simp] theorem mapRun_mapRun
    (first second : Text → Text)
    (token : Token) :
    (token.mapRun first).mapRun second = token.mapRun fun run => second (first run) := by
  cases token <;> rfl

end Token

/-- The text that tokens make up together. -/
def spell (tokens : List Token) : Text :=
  tokens.flatMap Token.text

@[simp] theorem spell_nil : spell [] = [] := rfl

@[simp] theorem spell_identifier
    (run : Text)
    (rest : List Token) :
    spell (.identifier run :: rest) = run ++ spell rest := rfl

@[simp] theorem spell_other
    (symbol : Symbol)
    (rest : List Token) :
    spell (.other symbol :: rest) = symbol :: spell rest := rfl

theorem spell_append (early late : List Token) :
    spell (early ++ late) = spell early ++ spell late :=
  List.flatMap_append

/-- Puts an identifier symbol before tokens; a run that they start with takes it in. -/
def extend (symbol : Symbol) : List Token → List Token
  | .identifier run :: rest => .identifier (symbol :: run) :: rest
  | .other next :: rest => .identifier [symbol] :: .other next :: rest
  | [] => [.identifier [symbol]]

/-- The maximal runs of identifier symbols, and the other symbols between them. -/
def tokens : Text → List Token
  | [] => []
  | symbol :: rest =>
      if symbol.isIdentifier then extend symbol (tokens rest)
      else .other symbol :: tokens rest

/-- Tokens that start with a run. -/
def StartsWithRun (tokens : List Token) : Prop :=
  ∃ run rest, tokens = .identifier run :: rest

theorem extend_of_not_startsWithRun
    {tokens : List Token}
    (apart : ¬StartsWithRun tokens)
    (symbol : Symbol) :
    extend symbol tokens = .identifier [symbol] :: tokens := by
  match tokens with
  | [] => rfl
  | .other next :: rest => rfl
  | .identifier run :: rest => exact absurd ⟨run, rest, rfl⟩ apart

/-- The runs are made of identifier symbols, none is empty, and no two of them touch. -/
inductive Separated : List Token → Prop
  | nil : Separated []
  | other
      {symbol : Symbol}
      {rest : List Token}
      (outside : symbol.isIdentifier = false)
      (separated : Separated rest) :
      Separated (.other symbol :: rest)
  | identifier
      {run : Text}
      {rest : List Token}
      (nonempty : run ≠ [])
      (inside : run.all Symbol.isIdentifier = true)
      (apart : ¬StartsWithRun rest)
      (separated : Separated rest) :
      Separated (.identifier run :: rest)

theorem Separated.extend
    {tokens : List Token}
    (separated : Separated tokens)
    {symbol : Symbol}
    (inside : symbol.isIdentifier = true) :
    Separated (extend symbol tokens) := by
  cases separated with
  | nil => exact .identifier (by simp) (by simp [inside]) (by simp [StartsWithRun]) .nil
  | other outside separated =>
      refine .identifier (by simp) (by simp [inside]) (by simp [StartsWithRun]) ?_
      exact .other outside separated
  | identifier nonempty insideRun apart separated =>
      refine .identifier (by simp) ?_ apart separated
      rw [List.all_cons, inside, insideRun]
      rfl

theorem separated_tokens (text : Text) : Separated (tokens text) := by
  induction text with
  | nil => exact .nil
  | cons symbol rest inductionHypothesis =>
      unfold tokens
      split
      case isTrue inside => exact inductionHypothesis.extend inside
      case isFalse outside => exact .other (by simpa using outside) inductionHypothesis

theorem Separated.all_of_mem
    {parts : List Token}
    (separated : Separated parts)
    {run : Text}
    (member : .identifier run ∈ parts) :
    run.all Symbol.isIdentifier = true := by
  induction separated with
  | nil => contradiction
  | other _ _ inductionHypothesis => exact inductionHypothesis (by simpa using member)
  | identifier _ inside _ _ inductionHypothesis =>
      rcases List.mem_cons.mp member with same | later
      · injection same with run_eq
        rw [run_eq, inside]
      · exact inductionHypothesis later

theorem spell_extend
    (symbol : Symbol)
    (tokens : List Token) :
    spell (extend symbol tokens) = symbol :: spell tokens := by
  match tokens with
  | [] => rfl
  | .other next :: rest => rfl
  | .identifier run :: rest => rfl

theorem spell_tokens (text : Text) : spell (tokens text) = text := by
  induction text with
  | nil => rfl
  | cons symbol rest inductionHypothesis =>
      unfold tokens
      split
      · rw [spell_extend, inductionHypothesis]
      · rw [spell_other, inductionHypothesis]

theorem tokens_injective : Function.Injective tokens := by
  intro first second same
  rw [← spell_tokens first, same, spell_tokens]

/-- A run before a text that does not start with one is the first token. -/
theorem tokens_run_append
    {run rest : Text}
    (nonempty : run ≠ [])
    (inside : run.all Symbol.isIdentifier = true)
    (apart : ¬StartsWithRun (tokens rest)) :
    tokens (run ++ rest) = .identifier run :: tokens rest := by
  induction run with
  | nil => contradiction
  | cons symbol others inductionHypothesis =>
      simp only [List.all_cons, Bool.and_eq_true] at inside
      rw [List.cons_append, tokens, if_pos inside.1]
      cases others with
      | nil => exact extend_of_not_startsWithRun apart symbol
      | cons next others =>
          rw [inductionHypothesis (by simp) inside.2]
          rfl

theorem tokens_spell
    {parts : List Token}
    (separated : Separated parts) :
    tokens (spell parts) = parts := by
  induction separated with
  | nil => rfl
  | other outside separated inductionHypothesis =>
      rw [spell_other, tokens, inductionHypothesis]
      simp [outside]
  | identifier nonempty inside apart separated inductionHypothesis =>
      rw [spell_identifier, tokens_run_append nonempty inside, inductionHypothesis]
      rwa [inductionHypothesis]

/-- Tokens that do not touch are the tokens of the text that they spell, and no others are. -/
theorem tokens_eq_iff
    {text : Text}
    {parts : List Token} :
    tokens text = parts ↔ Separated parts ∧ spell parts = text := by
  constructor
  · rintro rfl
    exact ⟨separated_tokens text, spell_tokens text⟩
  · rintro ⟨separated, rfl⟩
    exact tokens_spell separated

/-- A text of identifier symbols is one run. -/
theorem tokens_of_all
    {run : Text}
    (nonempty : run ≠ [])
    (inside : run.all Symbol.isIdentifier = true) :
    tokens run = [.identifier run] := by
  rw [tokens_eq_iff]
  refine ⟨.identifier nonempty inside (by simp [StartsWithRun]) .nil, ?_⟩
  simp

/-- Runs that stay runs stay apart. -/
theorem Separated.map
    {parts : List Token}
    (separated : Separated parts)
    {change : Text → Text}
    (keeps : ∀ run : Text, run ≠ [] → run.all Symbol.isIdentifier = true →
      change run ≠ [] ∧ (change run).all Symbol.isIdentifier = true) :
    Separated (parts.map (Token.mapRun change)) := by
  induction separated with
  | nil => exact .nil
  | other outside separated inductionHypothesis => exact .other outside inductionHypothesis
  | @identifier run rest nonempty inside apart separated inductionHypothesis =>
      obtain ⟨nonemptyAfter, insideAfter⟩ := keeps run nonempty inside
      refine .identifier nonemptyAfter insideAfter ?_ inductionHypothesis
      rintro ⟨other, others, starts⟩
      cases rest with
      | nil => simp at starts
      | cons token rest =>
          cases token with
          | identifier next => exact apart ⟨next, rest, rfl⟩
          | other symbol => simp [Token.mapRun] at starts

end Text
end SchemaCodegen
