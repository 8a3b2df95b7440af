import FieldTables.File.Path
import FieldTables.Settings.Basic

/-!
# Arguments

The arguments name a command, and options at two levels: before the command and after it. An option
takes one value, which is the next argument, follows an equals sign, or, after the short form,
follows at once. What is given after the command takes the place of what is given before it.
-/

namespace FieldTables.CommandLine

/-- An option. -/
inductive Flag where
  /-- The file with the settings. -/
  | settings
  /-- The name space of the structures. -/
  | nameSpace
  /-- A further type word. -/
  | extraType
  /-- The header to read. -/
  | input
  /-- The enum header to write. -/
  | header
  /-- The source to write. -/
  | source
  deriving DecidableEq

namespace Flag

/-- The long form, without its dashes. -/
def long : Flag → Text
  | settings => "config".toList
  | nameSpace => "prefix".toList
  | extraType => "type".toList
  | input => "input".toList
  | header => "header".toList
  | source => "source".toList

/-- The letter of the short form. -/
def short? : Flag → Option Char
  | settings => some 'c'
  | input => some 'i'
  | _ => none

/-- Whether the value is a path, which is never empty. -/
def isPath : Flag → Bool
  | nameSpace => false
  | extraType => false
  | _ => true

/-- Whether the option may be given several times. -/
def isRepeatable (f : Flag) : Bool := f == extraType

end Flag

/-- Where arguments stand. -/
inductive Level where
  /-- Before the command. -/
  | top
  /-- After the command that writes both files. -/
  | generate
  /-- After the command that prints the model. -/
  | model
  deriving DecidableEq

namespace Level

/-- The options of a level. -/
def flags : Level → List Flag
  | top => [.settings, .nameSpace, .extraType]
  | generate => [.settings, .nameSpace, .extraType, .input, .header, .source]
  | model => [.settings, .nameSpace, .extraType, .input]

/-- The level that a command opens. -/
def ofCommand? (name : Text) : Option Level :=
  if name = "generate".toList then some generate
  else if name = "model".toList then some model
  else none

end Level

/-- What an argument is at its level. -/
inductive Argument where
  /-- The end of the options. -/
  | terminator
  /-- An option, and its value if it is in the same argument. -/
  | flag (f : Flag) (value : Option Text)
  /-- Something with a dash that is no option. -/
  | unknown
  /-- Anything else. -/
  | plain

/-- Whether an argument starts with a dash and is not the dash alone. -/
def isDashed : Text → Bool
  | '-' :: _ :: _ => true
  | _ => false

/-- A text cut at its first equals sign. -/
def cutAtEquals (t : Text) : Text × Option Text :=
  match t.dropWhile (· != '=') with
  | [] => (t, none)
  | _ :: value => (t.takeWhile (· != '='), some value)

/-- What an argument is. -/
def Argument.read (level : Level) : Text → Argument
  | ['-', '-'] => terminator
  | '-' :: '-' :: body =>
    let (name, value) := cutAtEquals body
    match level.flags.find? (·.long == name) with
    | some f => flag f value
    | none => unknown
  | '-' :: letter :: body =>
    match level.flags.find? (·.short? == some letter) with
    | some f =>
      match body with
      | [] => flag f none
      | '=' :: value => flag f (some value)
      | value => flag f (some value)
    | none => unknown
  | _ => plain

/-- The options of a level with their values, and the arguments from the command on. -/
def options? (level : Level) : List Text → Option (List (Flag × Text) × List Text)
  | [] => some ([], [])
  | argument :: rest =>
    match Argument.read level argument with
    | .terminator => if rest.isEmpty then some ([], []) else none
    | .flag f (some value) => do
      let (others, command) ← options? level rest
      return ((f, value) :: others, command)
    | .flag f none =>
      match rest with
      | [] => none
      | value :: rest =>
        if isDashed value then none
        else do
          let (others, command) ← options? level rest
          return ((f, value) :: others, command)
    | .unknown => none
    | .plain => some ([], argument :: rest)

/-- Options are in order when none is repeated against its rule and no path is empty. -/
def areInOrder (options : List (Flag × Text)) : Bool :=
  decide ((options.map Prod.fst).filter (!·.isRepeatable)).Nodup
    && options.all fun (f, value) => !(f.isPath && value.isEmpty)

/-- What to do. -/
inductive Command where
  /-- Write the enum header and the source of a header. -/
  | generate (input header source : Path)
  /-- Print the model of a header. -/
  | model (input : Path)
  deriving DecidableEq

/-- A command with what it is done by. -/
structure Invocation where
  /-- The file with the settings. -/
  settings : Option Path
  /-- The name space, in place of that of the settings. -/
  nameSpace : Option Text
  /-- Further type words, beside those of the settings. -/
  extraTypes : List Text
  /-- The command. -/
  command : Command
  deriving DecidableEq

/-- The command of a level with the options given there. -/
def Level.command (level : Level) (options : List (Flag × Text)) : Command :=
  let path (f : Flag) (default : Text) : Path := .ofText ((options.lookup f).getD default)
  match level with
  | model => .model (path .input defaultInput)
  | _ => .generate (path .input defaultInput) (path .header defaultHeader)
      (path .source defaultSource)

/-- The values of an option, those after the command in place of those before it. -/
def valuesOf (f : Flag) (before after : List (Flag × Text)) : List Text :=
  let values (options : List (Flag × Text)) := (options.filter (·.1 == f)).map Prod.snd
  if (values after).isEmpty then values before else values after

/-- The invocation that arguments ask for, if they are used as they should be. Without a command,
both files are written. -/
def invocation? (arguments : List Text) : Option Invocation := do
  let (before, rest) ← options? .top arguments
  let (level, after) ← match rest with
    | [] => pure (.top, [])
    | name :: rest => do
      let level ← Level.ofCommand? name
      let (after, extra) ← options? level rest
      guard extra.isEmpty
      pure (level, after)
  guard (areInOrder before && areInOrder after)
  return {
    settings := (valuesOf .settings before after).head?.map .ofText
    nameSpace := (valuesOf .nameSpace before after).head?
    extraTypes := valuesOf .extraType before after
    command := level.command after }

end FieldTables.CommandLine
