import Telemetry.Text.Numeral

/-!
# Command line arguments

A command line is a list of words. Options take a value, which is the next word or is attached to
the option; switches take none. Short names may share one word. Words that are neither are refused.

Words are read from the left. An option is settled, that is its value is checked, when the next
known name is read or the words end; so of several mistakes the one that is reported need not be the
first. A word with an unknown name is reported at once.
-/

namespace Telemetry.CommandLine

/-- What the command line says. -/
structure Args where
  /-- the application to report for -/
  appName : Option String := none
  /-- the file with the configuration -/
  config : Option String := none
  /-- the file to which uploads are written -/
  output : Option String := none
  /-- how many seconds to run; zero is for ever -/
  duration : UInt64 := 0
  /-- how many seconds there are between reports -/
  reportEvery : Option UInt64 := none
  /-- whether the agent keeps a journal -/
  debug : Bool := false
  deriving DecidableEq, Repr

/-- Why a command line is not carried out. -/
inductive Refusal where
  /-- help was asked for -/
  | displayHelp
  /-- a word is no argument -/
  | unknownArgument
  /-- an option has no value, or an empty one where that is not allowed -/
  | invalidValue
  /-- the value of an option cannot be read -/
  | valueValidation
  /-- an argument is given twice -/
  | argumentConflict
  /-- a switch is given a value -/
  | tooManyValues
  deriving DecidableEq, Repr

/-- The exit code: asking for help is no failure. -/
def Refusal.exitCode : Refusal → UInt8
  | displayHelp => 0
  | unknownArgument | invalidValue | valueValidation | argumentConflict | tooManyValues => 2

/-- The names of arguments. -/
inductive Name where
  | appName
  | config
  | output
  | duration
  | reportEvery
  | debug
  | help
  deriving DecidableEq, Repr

namespace Name

/-- The argument with a long name. -/
def ofLong? : String → Option Name
  | "app-name" => some appName
  | "config" => some config
  | "output" => some output
  | "duration" => some duration
  | "report-every" => some reportEvery
  | "debug" => some debug
  | "help" => some help
  | _ => none

/-- The argument with a short name. -/
def ofShort? : Char → Option Name
  | 'c' => some config
  | 'o' => some output
  | 'd' => some debug
  | 'h' => some help
  | _ => none

/-- Whether an argument takes a value. -/
def takesValue : Name → Bool
  | appName | config | output | duration | reportEvery => true
  | debug | help => false

end Name

/-- The words read so far. -/
structure Reader where
  args : Args := {}
  /-- the arguments that have been settled -/
  settled : List Name := []
  /-- the option that is not settled, with its value if that has been read -/
  pending : Option (Name × Option String) := none

namespace Reader

/-- Read the value of an option into the arguments. -/
def store (args : Args) (name : Name) (value : String) : Except Refusal Args :=
  match name with
  | .appName => .ok { args with appName := some value }
  | .config =>
    if value.isEmpty then .error .invalidValue else .ok { args with config := some value }
  | .output =>
    if value.isEmpty then .error .invalidValue else .ok { args with output := some value }
  | .duration =>
    match Text.numeral? value.toList with
    | some n => .ok { args with duration := n }
    | none => .error .valueValidation
  | .reportEvery =>
    match Text.numeral? value.toList with
    | some n => .ok { args with reportEvery := some n }
    | none => .error .valueValidation
  | .debug | .help => .error .tooManyValues

/-- An option with its value. -/
def option (r : Reader) (name : Name) (value : Option String) : Except Refusal Reader :=
  match value with
  | none => .error .invalidValue
  | some value =>
    if name ∈ r.settled then .error .argumentConflict
    else (store r.args name value).map fun args =>
      { r with args, settled := name :: r.settled }

/-- Settle the option that is not settled yet. -/
def settle (r : Reader) : Except Refusal Reader :=
  match r.pending with
  | none => .ok r
  | some (name, value) => { r with pending := none }.option name value

/-- A switch. -/
def switch (r : Reader) (name : Name) : Except Refusal Reader := do
  let r ← r.settle
  if name = .help then .error .displayHelp
  else if name ∈ r.settled then .error .argumentConflict
  else .ok { r with args := { r.args with debug := true }, settled := name :: r.settled }

/-- A known name, with the value attached to it. -/
def named (r : Reader) (name : Name) (attached : Option String) : Except Refusal Reader :=
  if name.takesValue then do
    let r ← r.settle
    match attached with
    | some value => r.option name (some value)
    | none => .ok { r with pending := some (name, none) }
  else
    match attached with
    | some _ => .error .tooManyValues
    | none => r.switch name

/-- A word that starts with two dashes, which have been taken off. -/
def long (r : Reader) (word : List Char) : Except Refusal Reader :=
  let attached :=
    match word.dropWhile (· != '=') with
    | '=' :: value => some (String.ofList value)
    | _ => none
  match Name.ofLong? (String.ofList (word.takeWhile (· != '='))) with
  | some name => r.named name attached
  | none => .error .unknownArgument

/-- A word of short names. All that follows the name of an option is its value, after an equals sign
if there is one. -/
def short (r : Reader) : List Char → Except Refusal Reader
  | [] => .ok r
  | c :: rest =>
    match Name.ofShort? c with
    | none => .error .unknownArgument
    | some name =>
      if name.takesValue then
        match rest with
        | [] => r.named name none
        | '=' :: value => r.named name (some (String.ofList value))
        | value => r.named name (some (String.ofList value))
      else do
        let r ← r.switch name
        r.short rest

/-- A word that is no name. -/
def plain (r : Reader) (word : String) : Except Refusal Reader :=
  match r.pending with
  | some (name, none) => .ok { r with pending := some (name, some word) }
  | some (_, some _) | none => .error .unknownArgument

/-- Read all words. Two dashes on their own end the names. -/
def read (r : Reader) : List String → Except Refusal Reader
  | [] => r.settle
  | word :: rest =>
    match word.toList with
    | ['-', '-'] => if rest.isEmpty then r.settle else .error .unknownArgument
    | '-' :: '-' :: cs => do
      let r ← r.long cs
      r.read rest
    | '-' :: c :: cs => do
      let r ← r.short (c :: cs)
      r.read rest
    | _ => do
      let r ← r.plain word
      r.read rest

end Reader

/-- Read a command line without the name of the program. -/
def Args.parse (words : List String) : Except Refusal Args :=
  (({} : Reader).read words).map (·.args)

end Telemetry.CommandLine
