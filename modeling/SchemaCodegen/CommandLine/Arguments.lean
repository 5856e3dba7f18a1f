import SchemaCodegen.CommandLine.Options
import SchemaCodegen.CommandLine.UsageFault

/-!
# Arguments

The arguments of the command are read as a sequence of flags, settings and extra
arguments.  The value of a setting is attached to it or is the next argument,
whatever that looks like.  Everything behind a double dash is an extra argument.
-/

namespace SchemaCodegen
namespace CommandLine

/-- One item of a command line. -/
inductive Item where
  /-- An option without a value. -/
  | flag (flag : Flag)
  /-- An option with its value. -/
  | setting (setting : Setting) (value : Text)
  /-- An argument that belongs to no option. -/
  | extra (argument : Text)
deriving DecidableEq, Repr

/-- What the spelling of an option in an argument means. -/
inductive Spelled where
  /-- An option without a value. -/
  | flag (flag : Flag)
  /-- An option with its value. -/
  | complete (setting : Setting) (value : Text)
  /-- An option whose value is the next argument. -/
  | pending (setting : Setting) (spelling : Text)
deriving DecidableEq, Repr

/-- The symbol that spellings of options begin with. -/
def dash : Symbol :=
  .char '-'

/-- The symbol between an option and the value that is attached to it. -/
def equalsSign : Symbol :=
  .char '='

/-- Whether an argument spells an option; a single dash is an argument like any other. -/
def spellsOption (argument : Text) : Bool :=
  match argument with
  | first :: _ :: _ => first == dash
  | _ => false

/-- The part of an argument before its first equals sign. -/
def spellingOf (argument : Text) : Text :=
  argument.takeWhile (· != equalsSign)

/-- The part of an argument behind its first equals sign. -/
def attachedValue? (argument : Text) : Option Text :=
  (argument.dropWhile (· != equalsSign)).tail?

/-- Reads an option from the letter behind a single dash. -/
def readShort (argument : Text) : Except UsageFault Spelled :=
  let spelling := argument.take 2
  let rest := argument.drop 2
  match argument[1]?.bind (List.lookup · shortSpellings) with
  | none => .error (.unknownOption spelling)
  | some setting =>
      if rest.isEmpty then .ok (.pending setting spelling)
      else .ok (.complete setting rest)

/-- Reads an option: long spellings come first, a letter may follow a single dash only. -/
def readOption (argument : Text) : Except UsageFault Spelled :=
  let spelling := spellingOf argument
  match List.lookup spelling longSpellings, attachedValue? argument with
  | some (.flag flag), none => .ok (.flag flag)
  | some (.flag _), some _ => .error (.unexpectedValue spelling)
  | some (.setting setting), some value => .ok (.complete setting value)
  | some (.setting setting), none => .ok (.pending setting spelling)
  | none, _ =>
      if argument.take 2 = [dash, dash] then .error (.unknownOption spelling)
      else readShort argument

/-- Reads a command line from left to right. -/
def readArguments : List Text → Except UsageFault (List Item)
  | [] => .ok []
  | argument :: rest =>
      if argument = "--" then .ok (rest.map .extra)
      else if spellsOption argument then
        match readOption argument, rest with
        | .error fault, _ => .error fault
        | .ok (.flag flag), rest => (readArguments rest).map (.flag flag :: ·)
        | .ok (.complete setting value), rest =>
            (readArguments rest).map (.setting setting value :: ·)
        | .ok (.pending _ spelling), [] => .error (.missingValue spelling)
        | .ok (.pending setting _), value :: rest =>
            (readArguments rest).map (.setting setting value :: ·)
      else (readArguments rest).map (.extra argument :: ·)

namespace Item

/-- Whether an item is the given flag. -/
def isFlag (wanted : Flag) (item : Item) : Bool :=
  item == .flag wanted

/-- The value that an item gives to a setting. -/
def value? (wanted : Setting) : Item → Option Text
  | .setting given value => if given = wanted then some value else none
  | .flag _ | .extra _ => none

/-- The setting that an item gives a value to. -/
def setting? : Item → Option Setting
  | .setting given _ => some given
  | .flag _ | .extra _ => none

/-- The extra argument that an item is. -/
def extra? : Item → Option Text
  | .extra argument => some argument
  | .flag _ | .setting _ _ => none

end Item

/-- Whether a flag is given. -/
def hasFlag (items : List Item) (flag : Flag) : Bool :=
  items.any (Item.isFlag flag)

/-- The last value that is given to a setting. -/
def lastValue? (items : List Item) (setting : Setting) : Option Text :=
  (items.filterMap (Item.value? setting)).getLast?

/-- The settings that are given, each once, in the order in which they first stand. -/
def givenSettings (items : List Item) : List Setting :=
  (items.filterMap Item.setting?).eraseDups

/-- The arguments that belong to no option. -/
def extraArguments (items : List Item) : List Text :=
  items.filterMap Item.extra?

end CommandLine
end SchemaCodegen
