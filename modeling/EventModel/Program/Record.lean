import EventModel.Program.LogLevel
import EventModel.Program.Run

/-!
# Records

A run keeps records of its progress: of its start, of the files that it is about to read, of the
stages of the check and of how it ends.  It also warns of each flow that is dropped.
-/

namespace EventModel.Program

/-- A record, of progress unless it is a warning. -/
structure Record where
  text : String
  isWarning : Bool := false
deriving DecidableEq, Repr

/-- The warning of a flow that is dropped. -/
def Record.ofDropped (f : Flow) : Record where
  text := "Dropping flow with a missing endpoint " ++
    s!"line={f.origin.number} from={f.source} to={f.target}"
  isWarning := true

/-- The records of checking a text. -/
def checkingRecords (settings : Settings) (source : String) : List Record :=
  let diagram := (Document.parse settings.rules source).diagram
  let judgement : List Record :=
    match settings.check source with
    | .ok report =>
      [{ text := s!"Diagram checked elements={report.diagram.elements.length} " ++
          s!"connections={report.connections.length}" }]
    | .error _ => []
  { text := "Parsing diagram" } :: { text := "Resolving connections" } ::
    (diagram.droppedFlows.map Record.ofDropped ++ judgement)

/-- The records at the end of a run that goes well. -/
def closingRecords (report : Report) : List Record :=
  [{ text := s!"Diagram checked warnings={report.diagnostics.length} " ++
      s!"connections={report.connections.length}" },
   { text := "Completed successfully" }]

namespace Host

/-- The record of loading a configuration file, if there is one to load. -/
def loadingRecord? (host : Host) (explicit : Option String) : Option Record :=
  let place :=
    if explicit.isSome then "explicit"
    else if host.files.holds projectConfig then "local"
    else "system"
  (host.configPath? explicit).map fun path =>
    { text := s!"Loading configuration from {place} path path={path}" }

/-- The records of a run from its start up to the verdict. -/
def records (host : Host) (level : LogLevel) (args : Arguments) : List Record :=
  let checking :=
    match host.settings args, host.files.readText args.input with
    | .ok settings, .ok source => checkingRecords settings source
    | _, _ => []
  { text := s!"Starting eventgrid log_level={level.name.capitalize}" } ::
    { text := s!"Checking diagram input_path={args.input}" } ::
    ((host.loadingRecord? args.config).toList ++ checking)

end Host

end EventModel.Program
