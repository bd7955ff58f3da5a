/-!
# Log levels

The log level decides how much is written on standard error.  Six levels are known, by names
in which case does not matter; any other name stands for the default, after a remark.
-/

namespace EventModel.Program

/-- How much is written on standard error. -/
inductive LogLevel
  | off
  | error
  | warn
  | info
  | debug
  | trace
deriving DecidableEq, Repr

namespace LogLevel

/-- All levels, from silence on. -/
def all : List LogLevel := [off, error, warn, info, debug, trace]

/-- The name of a level. -/
def name : LogLevel → String
  | off => "off"
  | error => "error"
  | warn => "warn"
  | info => "info"
  | debug => "debug"
  | trace => "trace"

/-- The level with a given name. -/
def ofName? (text : String) : Option LogLevel :=
  all.find? fun level => level.name.toList == text.toList.map Char.toLower

/-- Whether errors are written. -/
def showsErrors (level : LogLevel) : Bool := level != off

/-- Whether warnings are written. -/
def showsWarnings (level : LogLevel) : Bool := level != off && level != error

/-- Whether the progress of a run is written. -/
def showsProgress (level : LogLevel) : Bool := level.showsWarnings && level != warn

/-- The remark on a name that no level has. -/
def remark? (text : String) : Option String :=
  if (ofName? text).isSome then none
  else some s!"Invalid log level: {text}. Using 'warn' instead."

end LogLevel

end EventModel.Program
