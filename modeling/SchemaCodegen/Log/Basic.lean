import SchemaCodegen.Text.Symbol

/-!
# The log

Records are written by the handlers of one channel.  Configuring the channel
leaves it with exactly one handler, so a record is written at most once.
-/

namespace SchemaCodegen
namespace Log

/-- How important a record is. -/
inductive Level where
  /-- Details of a run. -/
  | debug
  /-- What was achieved. -/
  | info
  /-- What may go wrong. -/
  | warning
  /-- What went wrong. -/
  | error
  /-- What went wrong for good. -/
  | critical
deriving DecidableEq, Repr

namespace Level

/-- Levels are compared by their rank. -/
def rank : Level → Nat
  | .debug => 10
  | .info => 20
  | .warning => 30
  | .error => 40
  | .critical => 50

/-- The name of a level in the log. -/
def name : Level → String
  | .debug => "DEBUG"
  | .info => "INFO"
  | .warning => "WARNING"
  | .error => "ERROR"
  | .critical => "CRITICAL"

/-- Whether a level reaches a threshold. -/
def reaches (level threshold : Level) : Bool :=
  threshold.rank ≤ level.rank

end Level

/-- A message with its level. -/
structure Record where
  /-- How important the record is. -/
  level : Level
  /-- What it tells. -/
  message : Text
deriving DecidableEq, Repr

/-- The written form of a record. -/
def Record.text (record : Record) : Text :=
  "[caps] " ++ record.level.name ++ " " ++ record.message ++ "\n"

/-- Writes the records that reach its threshold to the standard error stream. -/
structure Handler where
  /-- The lowest level that is written. -/
  threshold : Level
deriving DecidableEq, Repr

/-- The channel of the program. -/
structure Channel where
  /-- The lowest level that is handed to the handlers. -/
  threshold : Level
  /-- Whether records also go to the channels above. -/
  propagates : Bool
  /-- The handlers, each of which writes every record it accepts. -/
  handlers : List Handler
deriving DecidableEq, Repr

namespace Channel

/-- The channel before it is configured. -/
def initial : Channel :=
  ⟨.warning, true, []⟩

/-- The threshold for a verbose or a quiet run. -/
def thresholdFor (verbose : Bool) : Level :=
  if verbose then .debug else .warning

/-- Adds a handler. -/
def addHandler (channel : Channel) (handler : Handler) : Channel :=
  { channel with handlers := channel.handlers ++ [handler] }

/-- Takes all handlers away and adds one for a verbose or a quiet run. -/
def configure (channel : Channel) (verbose : Bool) : Channel :=
  let threshold := thresholdFor verbose
  addHandler { channel with threshold, propagates := false, handlers := [] } ⟨threshold⟩

/-- What the handlers write for a record. -/
def write (channel : Channel) (record : Record) : List Text :=
  if record.level.reaches channel.threshold then
    (channel.handlers.filter fun handler => record.level.reaches handler.threshold).map
      fun _ => record.text
  else []

/-- What is written for some records, in order. -/
def writeAll (channel : Channel) (records : List Record) : Text :=
  (records.flatMap channel.write).flatten

end Channel

end Log
end SchemaCodegen
