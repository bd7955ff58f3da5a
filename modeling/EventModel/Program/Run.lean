import EventModel.Check.Configuration
import EventModel.Program.Arguments
import EventModel.Program.Files

/-!
# Running a check

The program loads its configuration, reads the input, checks it and lists the connections if
it is asked to.  The first configuration file that is found decides; if it is at fault, that
is the end of the matter.
-/

namespace EventModel.Program

/-- What the program runs on: files, the configuration file of the platform, and a way to read the
text of configuration files. -/
structure Host where
  files : FileSystem
  platformConfig : Option String
  decode : String → Except ConfigurationFault Settings := Settings.ofToml

/-- The configuration file of a project. -/
def projectConfig : String := "eventgrid/config.toml"

namespace Host

/-- The configuration file to use, if there is one. -/
def configPath? (host : Host) (explicit : Option String) : Option String :=
  match explicit with
  | some path => some path
  | none =>
    if host.files.holds projectConfig then some projectConfig
    else host.platformConfig.filter host.files.holds

/-- The settings in a configuration file. -/
def readSettings (host : Host) (path : String) : Except Failure Settings :=
  if host.files.holds path then
    match host.files.readText path with
    | .ok text => (host.decode text).mapError .configuration
    | .error fault => .error (.file fault)
  else .error (.configuration (.missing path))

/-- The settings under which a check runs. -/
def settings (host : Host) (args : Arguments) : Except Failure Settings :=
  ((host.configPath? args.config).elim (.ok {}) host.readSettings).map fun found =>
    { found with denyWarnings := found.denyWarnings || args.denyWarnings }

/-- Checks the input file. -/
def check (host : Host) (args : Arguments) : Except Failure Report :=
  match host.settings args with
  | .error failure => .error failure
  | .ok settings =>
    match host.files.readText args.input with
    | .error fault => .error (.file fault)
    | .ok source => settings.check source

end Host

/-- The paths that a run may look at, given the command line. -/
def pathsFor (platformConfig : Option String) (words : List String) : List String :=
  match Arguments.parse words with
  | .ok args => args.input :: projectConfig :: (args.config.toList ++ platformConfig.toList)
  | .error _ => []

/-- What a passing check prints: one line for each connection, if they were asked for. -/
def listing (args : Arguments) (report : Report) : String :=
  if args.connections then
    String.join (report.connections.map fun connection => toString connection ++ "\n")
  else ""

end EventModel.Program
