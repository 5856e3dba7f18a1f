import SchemaCodegen.Json.Literal

/-!
# Command lines for the shell

A command line is shown so that a shell splits it into the same words again.
Words that hold anything but a few safe characters are put between single
quotation marks, and a single mark itself between double ones.
-/

namespace SchemaCodegen
namespace Shell

open Json (Value)

/-- The symbols that no shell treats specially. -/
def isSafe : Symbol → Bool
  | .char character => character.isAlphanum || "_@%+=:,./-".toList.contains character
  | .raw _ | .half _ => false

/-- The single quotation mark. -/
def singleMark : Symbol :=
  .char '\x27'

/-- The double quotation mark. -/
def doubleMark : Symbol :=
  .char '\x22'

/-- The blank. -/
def blank : Symbol :=
  .char ' '

/-- The spelling of a symbol between single quotation marks. -/
def quoteSymbol (symbol : Symbol) : Text :=
  if symbol = singleMark then [singleMark, doubleMark, singleMark, doubleMark, singleMark]
  else [symbol]

/-- The spelling of a word. -/
def quoteWord (word : Text) : Text :=
  if word.isEmpty then [singleMark, singleMark]
  else if word.all isSafe then word
  else singleMark :: word.flatMap quoteSymbol ++ [singleMark]

/-- The spelling of a list of words, separated by blanks. -/
def joinWords : List Text → Text
  | [] => []
  | [word] => quoteWord word
  | word :: rest => quoteWord word ++ blank :: joinWords rest

/-- The command line of some arguments; each is shown by its text. -/
def commandLine (arguments : List Value) : Text :=
  joinWords (arguments.map Value.display)

end Shell
end SchemaCodegen
