import SchemaCodegen.Command.Shell

/-!
# Splitting command lines

A shell reads a command line symbol by symbol and splits it into words.  Blanks
separate words unless they are quoted, and the pieces of a word are put together
whatever their quotation is.  A line in which an unquoted symbol would start another
command, a redirection or an expansion is not split at all.  The shown command line of
some arguments is split into these arguments.
-/

namespace SchemaCodegen
namespace Shell

open Json (Value)

/-- How a shell reads the next symbol. -/
inductive Quoting where
  /-- Outside quotation marks. -/
  | unquoted
  /-- Behind a backslash outside quotation marks. -/
  | escaped
  /-- Between single quotation marks. -/
  | single
  /-- Between double quotation marks. -/
  | double
  /-- Behind a backslash between double quotation marks. -/
  | doubleEscaped
  /-- Behind a number sign that starts a comment. -/
  | comment
deriving DecidableEq, Repr

/-- How far a shell has come with a command line. -/
structure Splitter where
  /-- How the next symbol is read. -/
  quoting : Quoting
  /-- The word that has begun, if one has. -/
  word : Option Text
  /-- The words that are complete. -/
  words : List Text
deriving DecidableEq, Repr

/-- The symbol that quotes the next one. -/
def backslash : Symbol :=
  .char '\\'

/-- The symbols that separate words. -/
def isBlank (symbol : Symbol) : Bool :=
  symbol == blank || symbol == .char '\t'

/-- The symbols that end a command or start an expansion unless they are quoted. -/
def specials : Text :=
  "\n|&;<>()$\x60*?["

/-- The symbols that a backslash quotes between double quotation marks. -/
def escapables : Text :=
  "$\x60\x22\\"

namespace Splitter

/-- Nothing has been read. -/
def start : Splitter :=
  ⟨.unquoted, none, []⟩

/-- Goes on with other quotation. -/
def switch (splitter : Splitter) (quoting : Quoting) : Splitter :=
  { splitter with quoting }

/-- Adds symbols to the word, which begins if it has not yet. -/
def hold (splitter : Splitter) (symbols : Text) : Splitter :=
  { splitter with word := some (splitter.word.getD [] ++ symbols) }

/-- Completes the word, if one has begun. -/
def complete (splitter : Splitter) : Splitter :=
  { splitter with
    word := none
    words := splitter.words ++ splitter.word.toList }

/-- Reads a symbol outside quotation marks. -/
def readUnquoted (splitter : Splitter) (symbol : Symbol) : Option Splitter :=
  if isBlank symbol then some splitter.complete
  else if symbol = singleMark then some ((splitter.hold []).switch .single)
  else if symbol = doubleMark then some ((splitter.hold []).switch .double)
  else if symbol = backslash then some (splitter.switch .escaped)
  else if symbol = .char '#' ∧ splitter.word = none then some (splitter.switch .comment)
  else if symbol ∈ specials ∨ symbol = .char '~' ∧ splitter.word = none then none
  else some (splitter.hold [symbol])

/-- Reads a symbol between double quotation marks. -/
def readDouble (splitter : Splitter) (symbol : Symbol) : Option Splitter :=
  if symbol = doubleMark then some (splitter.switch .unquoted)
  else if symbol = backslash then some (splitter.switch .doubleEscaped)
  else if symbol ∈ escapables then none
  else some (splitter.hold [symbol])

/-- Reads a symbol; an escaped newline joins two lines. -/
def read (splitter : Splitter) (symbol : Symbol) : Option Splitter :=
  match splitter.quoting with
  | .unquoted => splitter.readUnquoted symbol
  | .escaped =>
      if symbol = .newline then some (splitter.switch .unquoted)
      else some ((splitter.hold [symbol]).switch .unquoted)
  | .single =>
      if symbol = singleMark then some (splitter.switch .unquoted)
      else some (splitter.hold [symbol])
  | .double => splitter.readDouble symbol
  | .doubleEscaped =>
      if symbol ∈ escapables then some ((splitter.hold [symbol]).switch .double)
      else if symbol = .newline then some (splitter.switch .double)
      else some ((splitter.hold [backslash, symbol]).switch .double)
  | .comment => if symbol = .newline then none else some splitter

/-- Reads symbols. -/
def run (splitter : Splitter) (symbols : Text) : Option Splitter :=
  symbols.foldlM read splitter

/-- The words, once everything is read and all quotation marks are closed. -/
def finish (splitter : Splitter) : Option (List Text) :=
  match splitter.quoting with
  | .unquoted | .comment => some splitter.complete.words
  | _ => none

end Splitter

/-- The words of a command line that is one plain command. -/
def split (line : Text) : Option (List Text) :=
  (Splitter.start.run line).bind Splitter.finish

/-! ## Reading what is shown -/

theorem ne_of_isSafe
    {symbol other : Symbol}
    (safe : isSafe symbol = true)
    (different : isSafe other = false) :
    symbol ≠ other := by
  rintro rfl
  simp [safe] at different

theorem not_mem_specials_of_isSafe
    {symbol : Symbol}
    (safe : isSafe symbol = true) :
    symbol ∉ specials := by
  have noneSafe : specials.any isSafe = false := by decide
  intro special
  have someSafe := List.any_eq_true.mpr ⟨symbol, special, safe⟩
  rw [noneSafe] at someSafe
  contradiction

namespace Splitter

@[simp] theorem run_nil (splitter : Splitter) : splitter.run [] = some splitter := rfl

@[simp] theorem run_cons (splitter : Splitter) (symbol : Symbol) (rest : Text) :
    splitter.run (symbol :: rest) =
      (splitter.read symbol).bind fun next => next.run rest := rfl

@[simp] theorem run_append (splitter : Splitter) (first second : Text) :
    splitter.run (first ++ second) =
      (splitter.run first).bind fun next => next.run second :=
  List.foldlM_append

theorem read_of_isSafe
    {symbol : Symbol}
    (safe : isSafe symbol = true)
    (held : Option Text)
    (words : List Text) :
    read ⟨.unquoted, held, words⟩ symbol =
      some ⟨.unquoted, some (held.getD [] ++ [symbol]), words⟩ := by
  have notBlank := ne_of_isSafe safe (show isSafe blank = false by decide)
  have notTab := ne_of_isSafe safe (show isSafe (.char '\t') = false by decide)
  have notSingle := ne_of_isSafe safe (show isSafe singleMark = false by decide)
  have notDouble := ne_of_isSafe safe (show isSafe doubleMark = false by decide)
  have notBackslash := ne_of_isSafe safe (show isSafe backslash = false by decide)
  have notSign := ne_of_isSafe safe (show isSafe (.char '#') = false by decide)
  have notTilde := ne_of_isSafe safe (show isSafe (.char '~') = false by decide)
  simp [read, readUnquoted, isBlank, hold, notBlank, notTab, notSingle, notDouble,
    notBackslash, notSign, notTilde, not_mem_specials_of_isSafe safe]

/-- Safe symbols are kept as they are. -/
theorem run_safe
    {symbols : Text}
    (safe : symbols.all isSafe = true)
    (held : Text)
    (words : List Text) :
    run ⟨.unquoted, some held, words⟩ symbols =
      some ⟨.unquoted, some (held ++ symbols), words⟩ := by
  induction symbols generalizing held with
  | nil => simp
  | cons symbol rest inductionHypothesis =>
      rw [List.all_cons, Bool.and_eq_true] at safe
      rw [run_cons, read_of_isSafe safe.1, Option.bind_some, inductionHypothesis safe.2]
      simp

/--
Between single quotation marks every symbol is read as itself.  To read such a mark,
the quotation is left for a moment, without leaving the word.
-/
theorem run_quoteSymbol
    (symbol : Symbol)
    (held : Text)
    (words : List Text) :
    run ⟨.single, some held, words⟩ (quoteSymbol symbol) =
      some ⟨.single, some (held ++ [symbol]), words⟩ := by
  unfold quoteSymbol
  by_cases mark : symbol = singleMark
  · simp [mark, read, readUnquoted, readDouble, isBlank, switch, hold, singleMark,
      doubleMark, blank, backslash, escapables, Text.ofString]
  · simp [mark, read, hold]

theorem run_quoteSymbols
    (symbols held : Text)
    (words : List Text) :
    run ⟨.single, some held, words⟩ (symbols.flatMap quoteSymbol) =
      some ⟨.single, some (held ++ symbols), words⟩ := by
  induction symbols generalizing held with
  | nil => simp
  | cons symbol rest inductionHypothesis =>
      rw [List.flatMap_cons, run_append, run_quoteSymbol, Option.bind_some,
        inductionHypothesis]
      simp

/-- A spelled word is read as that word, even if it is empty. -/
theorem run_quoteWord (word : Text) (words : List Text) :
    run ⟨.unquoted, none, words⟩ (quoteWord word) =
      some ⟨.unquoted, some word, words⟩ := by
  have opened : read ⟨.unquoted, none, words⟩ singleMark =
      some ⟨.single, some [], words⟩ := rfl
  have closed : read ⟨.single, some word, words⟩ singleMark =
      some ⟨.unquoted, some word, words⟩ := rfl
  fun_cases quoteWord word with
  | case1 empty =>
      rw [List.isEmpty_iff] at empty
      subst empty
      simp [opened, closed]
  | case2 nonempty safe =>
      cases word with
      | nil => simp at nonempty
      | cons symbol rest =>
          rw [List.all_cons, Bool.and_eq_true] at safe
          rw [run_cons, read_of_isSafe safe.1, Option.bind_some, run_safe safe.2]
          simp
  | case3 => simp [opened, closed, run_quoteSymbols]

/-- Words with blanks between them are read as these words. -/
theorem run_joinWords (arguments words : List Text) :
    (run ⟨.unquoted, none, words⟩ (joinWords arguments)).bind finish =
      some (words ++ arguments) := by
  fun_induction joinWords arguments generalizing words with
  | case1 => simp [finish, complete]
  | case2 word => simp [run_quoteWord, finish, complete]
  | case3 word rest _ inductionHypothesis =>
      have separated : read ⟨.unquoted, some word, words⟩ blank =
          some ⟨.unquoted, none, words ++ [word]⟩ := rfl
      rw [run_append, run_quoteWord, Option.bind_some, run_cons, separated,
        Option.bind_some, inductionHypothesis]
      simp

end Splitter

/-- A shell splits a command line into the texts of its arguments. -/
theorem split_commandLine (arguments : List Value) :
    split (commandLine arguments) = some (arguments.map Value.display) :=
  Splitter.run_joinWords (arguments.map Value.display) []

/--
Whatever symbols some arguments are made of, a shell splits their command line into
these arguments, so no two lists of arguments have the same command line.
-/
theorem split_commandLine_and_injective :
    (∀ arguments : List Text,
      split (commandLine (arguments.map .string)) = some arguments) ∧
    Function.Injective fun arguments : List Text =>
      commandLine (arguments.map .string) := by
  have splits : ∀ arguments : List Text,
      split (commandLine (arguments.map .string)) = some arguments := by
    intro arguments
    simp [split_commandLine, Function.comp_def]
  refine ⟨splits, ?_⟩
  intro first second same
  have words := congrArg split same
  simpa [splits] using words

example :
    split "caps -o\"a b\"'c d'\\ e '' # all" =
      some [("caps" : Text), ("-oa bc d e" : Text), []] := by
  decide

end Shell
end SchemaCodegen
