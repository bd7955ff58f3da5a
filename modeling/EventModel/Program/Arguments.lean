/-!
# Command-line arguments

The command line names one input file and any of a few options.  Options with a value take
it from the next word or after an equals sign; a word that starts with a hyphen is an option
unless it follows `--`.  An option that was named last is only settled when the next one is
met or the line ends, which decides what is reported of two faults.
-/

namespace EventModel.Program

/-- What the program is asked to do. -/
structure Arguments where
  input : String
  config : Option String := none
  logLevel : String := "warn"
  connections : Bool := false
  denyWarnings : Bool := false
deriving DecidableEq, Repr

/-- An option that takes a value. -/
inductive ValueOption
  | config
  | logLevel
deriving DecidableEq, Repr

/-- An option that takes no value. -/
inductive Switch
  | connections
  | denyWarnings
  | help
  | version
deriving DecidableEq, Repr

/-- What a word of the command line may name. -/
inductive OptionName
  | value (option : ValueOption)
  | switch (option : Switch)
deriving DecidableEq, Repr

namespace OptionName

/-- The option with a long name. -/
def ofLong? : String → Option OptionName
  | "config" => some (.value .config)
  | "log-level" => some (.value .logLevel)
  | "connections" => some (.switch .connections)
  | "deny-warnings" => some (.switch .denyWarnings)
  | "help" => some (.switch .help)
  | "version" => some (.switch .version)
  | _ => none

/-- The option with a short name. -/
def ofShort? : Char → Option OptionName
  | 'c' => some (.value .config)
  | 'h' => some (.switch .help)
  | 'V' => some (.switch .version)
  | _ => none

/-- An option as it is written, with a word for its value. -/
def usage : OptionName → String
  | .value .config => "--config <CONFIG>"
  | .value .logLevel => "--log-level <LOG_LEVEL>"
  | .switch .connections => "--connections"
  | .switch .denyWarnings => "--deny-warnings"
  | .switch .help => "--help"
  | .switch .version => "--version"

end OptionName

/-- Why the program ends without having checked anything. -/
inductive Dismissal
  | help
  | version
  | unknownArgument (word : String)
  | missingValue (option : ValueOption)
  | unexpectedValue (option : Switch) (value : String)
  | repeatedOption (option : OptionName)
  | missingInput
deriving DecidableEq, Repr

namespace Arguments

/-- What has been read of a command line. -/
structure Reading where
  input : Option String := none
  config : Option String := none
  logLevel : Option String := none
  connections : Bool := false
  denyWarnings : Bool := false
  /-- The option that was named last, with its value if that has been read. -/
  pending : Option (ValueOption × Option String) := none
  /-- Whether `--` has been read, after which no word is an option. -/
  onlyInput : Bool := false
deriving DecidableEq, Repr

namespace Reading

/-- Gives an option its value; it can have only one. -/
def assign (r : Reading) (option : ValueOption) (value : String) : Except Dismissal Reading :=
  match option with
  | .config =>
    if r.config.isSome then .error (.repeatedOption (.value option))
    else .ok { r with config := some value }
  | .logLevel =>
    if r.logLevel.isSome then .error (.repeatedOption (.value option))
    else .ok { r with logLevel := some value }

/-- Settles the option that was named last. -/
def settle (r : Reading) : Except Dismissal Reading :=
  match r.pending with
  | none => .ok r
  | some (option, none) => .error (.missingValue option)
  | some (option, some value) => { r with pending := none }.assign option value

/-- Reads an option that takes no value. -/
def turnOn (r : Reading) (option : Switch) : Except Dismissal Reading := do
  let r ← r.settle
  match option with
  | .connections =>
    if r.connections then .error (.repeatedOption (.switch option))
    else .ok { r with connections := true }
  | .denyWarnings =>
    if r.denyWarnings then .error (.repeatedOption (.switch option))
    else .ok { r with denyWarnings := true }
  | .help => .error .help
  | .version => .error .version

/-- Reads an option that takes a value, with the value if it was written with it. -/
def nameOption (r : Reading) (option : ValueOption) (value : Option String) :
    Except Dismissal Reading := do
  let r ← r.settle
  match value with
  | some value => r.assign option value
  | none => .ok { r with pending := some (option, none) }

/-- Reads an option by its long name. -/
def readLong (r : Reading) (word : List Char) : Except Dismissal Reading :=
  let value :=
    match word.dropWhile (· != '=') with
    | [] => none
    | _ :: value => some (String.ofList value)
  let name := String.ofList (word.takeWhile (· != '='))
  match OptionName.ofLong? name, value with
  | none, _ => .error (.unknownArgument ("--" ++ name))
  | some (.value option), _ => r.nameOption option value
  | some (.switch option), none => r.turnOn option
  | some (.switch option), some value => .error (.unexpectedValue option value)

/-- Reads an option by its short name; what follows the name is its value. -/
def readShort (r : Reading) (letter : Char) (word : List Char) : Except Dismissal Reading :=
  match OptionName.ofShort? letter with
  | none => .error (.unknownArgument (String.ofList ['-', letter]))
  | some (.switch option) => r.turnOn option
  | some (.value option) =>
    match word with
    | [] => r.nameOption option none
    | '=' :: value => r.nameOption option (some (String.ofList value))
    | value => r.nameOption option (some (String.ofList value))

/-- Reads the name of the input file, of which there is one. -/
def readInput (r : Reading) (word : String) : Except Dismissal Reading := do
  if r.input.isSome then .error (.unknownArgument word)
  else
    let r ← r.settle
    .ok { r with input := some word }

/-- Reads a word that names no option: the value of the option before it, or the input. -/
def readPlain (r : Reading) (word : String) : Except Dismissal Reading :=
  match r.pending with
  | some (option, none) => .ok { r with pending := some (option, some word) }
  | _ => r.readInput word

/-- Reads a word. -/
def read (r : Reading) (word : String) : Except Dismissal Reading :=
  if r.onlyInput then r.readInput word
  else
    match word.toList with
    | ['-', '-'] => .ok { r with onlyInput := true }
    | '-' :: '-' :: rest => r.readLong rest
    | '-' :: letter :: rest => r.readShort letter rest
    | _ => r.readPlain word

/-- The arguments that have been read, at the end of the line. -/
def finish (r : Reading) : Except Dismissal Arguments := do
  let r ← r.settle
  match r.input with
  | none => .error .missingInput
  | some input =>
    .ok { input
          config := r.config
          logLevel := r.logLevel.getD "warn"
          connections := r.connections
          denyWarnings := r.denyWarnings }

end Reading

/-- Reads a command line, given without the name of the program. -/
def parse (words : List String) : Except Dismissal Arguments := do
  (← words.foldlM Reading.read {}).finish

end Arguments

end EventModel.Program
