import SchemaCodegen.Text.Shown

/-!
# Echoed text

What the command tells about errors is written as plain text.  The control
sequences of a terminal are left out: an escape character and a bracket, some
parameters, some intermediate characters and a final one.  What is left goes to the
standard error stream.
-/

namespace SchemaCodegen
namespace CommandLine
namespace Echo

/-- The symbol that starts a control sequence, before its opening bracket. -/
def escapeSymbol : Symbol :=
  .char '\x1b'

/-- The symbol behind the one that starts a control sequence. -/
def openingBracket : Symbol :=
  .char '['

/-- Whether a symbol is a character between two others. -/
def isBetween (first last : Char) : Symbol → Bool
  | .char character => first ≤ character && character ≤ last
  | .raw _ | .half _ => false

/-- The symbols that may follow the opening bracket: digits and the signs behind them. -/
def isParameter (symbol : Symbol) : Bool :=
  isBetween '0' '?' symbol

/-- The symbols that may follow the parameters: the blank and the signs behind it. -/
def isIntermediate (symbol : Symbol) : Bool :=
  isBetween ' ' '/' symbol

/-- The symbols that end a control sequence: the other printable ones of ASCII. -/
def isFinal (symbol : Symbol) : Bool :=
  isBetween '@' '~' symbol

/-- The length of the control sequence at the head of a text, zero if there is none. -/
def sequenceLength : Text → Nat
  | first :: second :: rest =>
      let parameters := rest.takeWhile isParameter
      let behind := rest.drop parameters.length
      let intermediates := behind.takeWhile isIntermediate
      match behind.drop intermediates.length with
      | last :: _ =>
          if first = escapeSymbol ∧ second = openingBracket ∧ isFinal last then
            parameters.length + intermediates.length + 3
          else 0
      | [] => 0
  | _ => 0

/--
Drops the control sequences behind the next `consumed` symbols, which belong to one
that is already dropped.
-/
def plainFrom : (consumed : Nat) → Text → Text
  | _, [] => []
  | consumed + 1, _ :: rest => plainFrom consumed rest
  | 0, symbol :: rest =>
      match sequenceLength (symbol :: rest) with
      | 0 => symbol :: plainFrom 0 rest
      | length + 1 => plainFrom length rest

/-- The text without control sequences. -/
def plain (text : Text) : Text :=
  plainFrom 0 text

/-- What is written about an error. -/
def error (message : Text) : String :=
  (plain ("Error: " ++ message)).shown ++ "\n"

end Echo
end CommandLine
end SchemaCodegen
