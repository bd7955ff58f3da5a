import EventModel.Check.Notice
import EventModel.Program.Record
import EventModel.Text.ControlSequence

/-!
# Execution

An execution takes the words of the command line to an exit code and to what is written:
the listing on standard output, and notices on standard error.  Standard error is taken to
be no terminal, so that words of the command line are repeated without what would steer one;
only the remark on the log level quotes its name as it is.
-/

namespace EventModel.Program

open Text.ControlSequence (strip)

/-- The help text, line by line. -/
def helpLines : List String :=
  ["Command-line checker for the eventgrid diagram language",
   "",
   "Usage: eventgrid [OPTIONS] <INPUT>",
   "",
   "Arguments:",
   "  <INPUT>  Path to the input file",
   "",
   "Options:",
   "  -c, --config <CONFIG>        Path to configuration file (TOML)",
   "      --log-level <LOG_LEVEL>  Log level (off, error, warn, info, debug, trace) " ++
     "[default: warn]",
   "      --connections            Print every resolved connection to stdout",
   "      --deny-warnings          Fail when any warning is reported",
   "  -h, --help                   Print help",
   "  -V, --version                Print version"]

/-- The help text. -/
def helpText : String := String.join (helpLines.map (· ++ "\n"))

/-- The name and version of the program. -/
def versionText : String := "eventgrid-cli 0.1.0\n"

/-- What an execution leaves behind: an exit code, what is written on standard output, and
on standard error a remark on the log level, records of the progress, notices and closing records,
or a complaint. -/
structure Execution where
  exitCode : UInt8
  output : String := ""
  remark : Option String := none
  progress : List String := []
  notices : List Notice := []
  closing : List String := []
  complaint : Option String := none

namespace Dismissal

/-- Help and version are what was asked for; anything else is misuse. -/
def exitCode : Dismissal → UInt8
  | help | version => 0
  | _ => 2

/-- What is written on standard output in place of a listing. -/
def output : Dismissal → String
  | help => helpText
  | version => versionText
  | _ => ""

/-- What is written on standard error of a misuse. -/
def complaint? : Dismissal → Option String
  | help | version => none
  | unknownArgument word => some s!"error: unexpected argument '{strip word}' found"
  | missingValue option =>
    let usage := (OptionName.value option).usage
    some s!"error: a value is required for '{usage}' but none was supplied"
  | unexpectedValue option value =>
    let usage := (OptionName.switch option).usage
    some s!"error: unexpected value '{strip value}' for '{usage}' found; no more were expected"
  | repeatedOption option =>
    some s!"error: the argument '{option.usage}' cannot be used multiple times"
  | missingInput => some "error: the following required arguments were not provided:\n  <INPUT>"

/-- The execution that a dismissal makes up. -/
def execution (dismissal : Dismissal) : Execution where
  exitCode := dismissal.exitCode
  output := dismissal.output
  complaint := dismissal.complaint?

end Dismissal

/-- What is written of some records. -/
def LogLevel.written (level : LogLevel) (records : List Record) : List String :=
  let shown := records.filter fun record =>
    if record.isWarning then level.showsWarnings else level.showsProgress
  shown.map fun record => strip record.text

/-- The execution of a command line that has been read. -/
def Arguments.execution (host : Host) (args : Arguments) : Execution :=
  let level := (LogLevel.ofName? args.logLevel).getD .warn
  let remark := LogLevel.remark? args.logLevel
  let progress := level.written (host.records level args)
  match host.check args with
  | .ok report =>
    { exitCode := 0
      output := listing args report
      remark
      progress
      notices := if level.showsWarnings then Notice.ofDiagnostics report.diagnostics else []
      closing := level.written (closingRecords report) }
  | .error failure =>
    { exitCode := 1
      remark
      progress
      notices := if level.showsErrors then Notice.ofFailure failure else [] }

/-- Executes the program. -/
def execute (host : Host) (words : List String) : Execution :=
  match Arguments.parse words with
  | .error dismissal => dismissal.execution
  | .ok args => args.execution host

end EventModel.Program
