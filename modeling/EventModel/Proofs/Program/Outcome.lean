import EventModel.Program.Execution
import EventModel.Proofs.Check.Verdict
import EventModel.Proofs.Document.Writing

/-!
# What a run comes to

A run takes its settings from one place and never looks for another if that is at fault
(`Host.loads_iff`).  Only then does it read its input, and its exit code says whether all of it went
well (`Host.ends_iff`).  Asking for the listing changes no verdict, and denying warnings makes none
better (`execution_as_configured`).
-/

namespace EventModel

/-- The settings, with warnings denied if they are or if it is asked for. -/
def Settings.denying (settings : Settings) (deny : Bool) : Settings :=
  { settings with denyWarnings := settings.denyWarnings || deny }

/-- What passes with warnings denied passes otherwise, and shows the same. -/
theorem Settings.check_of_denying {settings : Settings} {source : String} {report : Report}
    (deny : Bool) (h : (settings.denying true).check source = .ok report) :
    (settings.denying deny).check source = .ok report := by
  rw [denying, Bool.or_true] at h
  rw [denying]
  cases settings.denyWarnings || deny with
  | true => exact h
  | false => exact (check_denying_iff.1 h).1

/-! ## One line for each connection -/

theorem Endpoint.newline_notMem_toString (e : Endpoint) : '\n' ∉ (toString e).toList := by
  change '\n' ∉ (toString e.id ++ " (" ++ toString e.cell ++ ") " ++ e.anchor.text).toList
  simp only [String.toList_append, List.mem_append, not_or]
  refine ⟨⟨⟨⟨fun h => ?_, by decide⟩, fun h => ?_⟩, by decide⟩, by cases e.anchor <;> decide⟩
  · exact absurd (Declaration.isNumeralChar_of_mem_id h) (by decide)
  · exact absurd (Declaration.isNumeralChar_of_mem_cell h) (by decide)

theorem Connection.newline_notMem_toString (c : Connection) : '\n' ∉ (toString c).toList := by
  change '\n' ∉
    (toString c.source ++ " -> " ++ toString c.target ++ " [" ++ c.style.text ++ "]").toList
  simp only [String.toList_append, List.mem_append, not_or]
  exact ⟨⟨⟨⟨⟨c.source.newline_notMem_toString, by decide⟩, c.target.newline_notMem_toString⟩,
    by decide⟩, by cases c.style <;> decide⟩, by decide⟩

namespace Program

/-! ## Files -/

namespace FileSystem

/-- There is a file at a path, and it holds a text in UTF-8. -/
def HoldsText (fs : FileSystem) (path text : String) : Prop := fs path = .file text.toUTF8

theorem fromUTF8?_eq_some_iff {content : ByteArray} {text : String} :
    String.fromUTF8? content = some text ↔ content = text.toUTF8 := by
  rw [String.fromUTF8?]
  constructor
  · intro h
    split at h
    · rw [← Option.some.inj h]
      rfl
    · exact absurd h (by simp)
  · rintro rfl
    exact dif_pos text.isValidUTF8

theorem readText_eq_ok_iff {fs : FileSystem} {path text : String} :
    fs.readText path = .ok text ↔ fs.HoldsText path text := by
  rw [readText, HoldsText]
  cases fs path with
  | file content =>
      simp only [FileEntry.file.injEq]
      rw [← fromUTF8?_eq_some_iff]
      cases String.fromUTF8? content <;> simp
  | directory | unreadable | absent => simp

end FileSystem

/-! ## Settings -/

namespace Host

/-- The configuration file that decides: the one that is named, or else the first of those of the
project and of the platform that exists. -/
inductive Chooses (host : Host) : Option String → Option String → Prop
  | named (path : String) : host.Chooses (some path) (some path)
  | project (hproject : host.files.holds projectConfig = true) :
      host.Chooses none (some projectConfig)
  | platform {path : String} (hproject : host.files.holds projectConfig = false)
      (hpath : host.platformConfig = some path) (hplatform : host.files.holds path = true) :
      host.Chooses none (some path)
  | nothing (hproject : host.files.holds projectConfig = false)
      (hplatform : ∀ path ∈ host.platformConfig, host.files.holds path = false) :
      host.Chooses none none

/-- What comes of the choice: the default settings without a file, and otherwise those in the file,
or an error if it is missing, cannot be read as a text or holds no settings. -/
inductive Loads (host : Host) : Option String → Except Failure Settings → Prop
  | default : host.Loads none (.ok {})
  | missing {path : String} (habsent : host.files.holds path = false) :
      host.Loads (some path) (.error (.configuration (.missing path)))
  | unreadable {path : String} {fault : FileFault} (hpresent : host.files.holds path = true)
      (hfault : host.files.readText path = .error fault) :
      host.Loads (some path) (.error (.file fault))
  | invalid {path text : String} {fault : ConfigurationFault}
      (htext : host.files.HoldsText path text) (hfault : host.decode text = .error fault) :
      host.Loads (some path) (.error (.configuration fault))
  | valid {path text : String} {settings : Settings} (htext : host.files.HoldsText path text)
      (hsettings : host.decode text = .ok settings) : host.Loads (some path) (.ok settings)

variable {host : Host}

/-- There is one choice. -/
theorem chooses_iff {explicit chosen : Option String} :
    host.Chooses explicit chosen ↔ host.configPath? explicit = chosen := by
  constructor
  · intro h
    cases h with
    | named path => rfl
    | project hproject => exact if_pos hproject
    | platform hproject hpath hplatform =>
        rw [configPath?, if_neg (by simp [hproject]), hpath, Option.filter_some, if_pos hplatform]
    | nothing hproject hplatform =>
        rw [configPath?, if_neg (by simp [hproject]), Option.filter_eq_none_iff]
        exact fun path hpath => by simp [hplatform path hpath]
  · intro h
    subst h
    cases explicit with
    | some path => exact .named path
    | none =>
        rw [configPath?]
        split
        · rename_i hproject
          exact .project hproject
        · rename_i hproject
          rw [Bool.not_eq_true] at hproject
          cases hchosen : host.platformConfig.filter host.files.holds with
          | none =>
              rw [Option.filter_eq_none_iff] at hchosen
              exact .nothing hproject fun path hpath => by simpa using hchosen path hpath
          | some path =>
              rw [Option.filter_eq_some_iff] at hchosen
              exact .platform hproject hchosen.1 hchosen.2

theorem holds_of_holdsText {path text : String} (h : host.files.HoldsText path text) :
    host.files.holds path = true := by
  rw [FileSystem.holds, h]

/-- There is one thing that comes of each choice. -/
theorem loads_iff {chosen : Option String} {loaded : Except Failure Settings} :
    host.Loads chosen loaded ↔ chosen.elim (.ok {}) host.readSettings = loaded := by
  constructor
  · intro h
    cases h with
    | default => rfl
    | missing habsent => rw [Option.elim_some, readSettings, if_neg (by simp [habsent])]
    | unreadable hpresent hfault =>
        rw [Option.elim_some, readSettings, if_pos hpresent, hfault]
    | invalid htext hfault =>
        rw [Option.elim_some, readSettings, if_pos (holds_of_holdsText htext),
          FileSystem.readText_eq_ok_iff.2 htext]
        exact congrArg (Except.mapError Failure.configuration) hfault
    | valid htext hsettings =>
        rw [Option.elim_some, readSettings, if_pos (holds_of_holdsText htext),
          FileSystem.readText_eq_ok_iff.2 htext]
        exact congrArg (Except.mapError Failure.configuration) hsettings
  · intro h
    subst h
    cases chosen with
    | none => exact .default
    | some path =>
        rw [Option.elim_some, readSettings]
        split
        · rename_i hpresent
          cases hread : host.files.readText path with
          | error fault => exact .unreadable hpresent hread
          | ok text =>
              have htext := FileSystem.readText_eq_ok_iff.1 hread
              cases hdecode : host.decode text with
              | error fault =>
                  simp only [hdecode]
                  exact .invalid htext hdecode
              | ok settings =>
                  simp only [hdecode]
                  exact .valid htext hdecode
        · rename_i habsent
          exact .missing (by simpa using habsent)

/-! ## Checks -/

/-- How a check ends.  Settings that cannot be had end it before the input is looked at. -/
inductive Ends (host : Host) (args : Arguments) : Except Failure Report → Prop
  | misconfigured {chosen : Option String} {failure : Failure}
      (hchosen : host.Chooses args.config chosen) (hloaded : host.Loads chosen (.error failure)) :
      host.Ends args (.error failure)
  | unread {chosen : Option String} {settings : Settings} {fault : FileFault}
      (hchosen : host.Chooses args.config chosen) (hloaded : host.Loads chosen (.ok settings))
      (hfault : host.files.readText args.input = .error fault) :
      host.Ends args (.error (.file fault))
  | checked {chosen : Option String} {settings : Settings} {source : String}
      (hchosen : host.Chooses args.config chosen) (hloaded : host.Loads chosen (.ok settings))
      (hsource : host.files.HoldsText args.input source) :
      host.Ends args ((settings.denying args.denyWarnings).check source)

/-- The settings are those that were loaded, with warnings denied if it is asked for. -/
theorem settings_eq {args : Arguments} {chosen : Option String}
    {loaded : Except Failure Settings} (hchosen : host.Chooses args.config chosen)
    (hloaded : host.Loads chosen loaded) :
    host.settings args = loaded.map (·.denying args.denyWarnings) := by
  rw [settings, chooses_iff.1 hchosen, loads_iff.1 hloaded]
  rfl

/-- A check ends in one way. -/
theorem ends_iff {args : Arguments} {outcome : Except Failure Report} :
    host.Ends args outcome ↔ host.check args = outcome := by
  constructor
  · intro h
    cases h with
    | misconfigured hchosen hloaded => rw [check, settings_eq hchosen hloaded]; rfl
    | unread hchosen hloaded hfault => rw [check, settings_eq hchosen hloaded, hfault]; rfl
    | checked hchosen hloaded hsource =>
        rw [check, settings_eq hchosen hloaded, FileSystem.readText_eq_ok_iff.2 hsource]; rfl
  · intro h
    subst h
    obtain ⟨chosen, hchosen⟩ : ∃ chosen, host.Chooses args.config chosen :=
      ⟨_, chooses_iff.2 rfl⟩
    obtain ⟨loaded, hloaded⟩ : ∃ loaded, host.Loads chosen loaded := ⟨_, loads_iff.2 rfl⟩
    rw [check, settings_eq hchosen hloaded]
    cases loaded with
    | error failure => exact .misconfigured hchosen hloaded
    | ok settings =>
        cases hread : host.files.readText args.input with
        | error fault => exact .unread hchosen hloaded hread
        | ok source =>
            exact .checked hchosen hloaded (FileSystem.readText_eq_ok_iff.1 hread)

/-- Only a check that gets through every stage ends well. -/
theorem check_eq_ok_iff {args : Arguments} {report : Report} :
    host.check args = .ok report ↔
      ∃ chosen settings source, host.Chooses args.config chosen ∧
        host.Loads chosen (.ok settings) ∧ host.files.HoldsText args.input source ∧
        (settings.denying args.denyWarnings).check source = .ok report := by
  constructor
  · intro h
    obtain ⟨outcome, hends, hok⟩ : ∃ outcome, host.Ends args outcome ∧ outcome = .ok report :=
      ⟨_, ends_iff.2 rfl, h⟩
    cases hends with
    | misconfigured | unread => cases hok
    | checked hchosen hloaded hsource =>
        exact ⟨_, _, _, hchosen, hloaded, hsource, hok⟩
  · rintro ⟨chosen, settings, source, hchosen, hloaded, hsource, hcheck⟩
    exact ends_iff.1 (hcheck ▸ .checked hchosen hloaded hsource)

/-- What goes well with warnings denied goes well otherwise, and shows the same. -/
theorem check_of_denyWarnings {args : Arguments} {report : Report}
    (h : host.check { args with denyWarnings := true } = .ok report) :
    host.check args = .ok report := by
  obtain ⟨chosen, settings, source, hchosen, hloaded, hsource, hcheck⟩ := check_eq_ok_iff.1 h
  exact check_eq_ok_iff.2
    ⟨chosen, settings, source, hchosen, hloaded, hsource, Settings.check_of_denying _ hcheck⟩

end Host

/-! ## Executions -/

namespace Arguments

variable {host : Host} {args : Arguments}

theorem execution_of_ok {report : Report} (h : host.check args = .ok report) :
    (args.execution host).exitCode = 0 ∧
      (args.execution host).output = listing args report := by
  rw [execution, h]
  exact ⟨rfl, rfl⟩

theorem execution_of_error {failure : Failure} (h : host.check args = .error failure) :
    (args.execution host).exitCode = 1 ∧ (args.execution host).output = "" := by
  rw [execution, h]
  exact ⟨rfl, rfl⟩

theorem exitCode_eq_zero_iff :
    (args.execution host).exitCode = 0 ↔ ∃ report, host.check args = .ok report := by
  cases h : host.check args with
  | error failure => simp [(execution_of_error h).1]
  | ok report => simp [(execution_of_ok h).1]

/-- Asking for the listing changes no verdict. -/
theorem exitCode_connections (flag : Bool) :
    (Arguments.execution host { args with connections := flag }).exitCode =
      (args.execution host).exitCode := by
  have hcheck : host.check { args with connections := flag } = host.check args := rfl
  cases h : host.check args with
  | error failure =>
      rw [(execution_of_error h).1, (execution_of_error (hcheck.trans h)).1]
  | ok report => rw [(execution_of_ok h).1, (execution_of_ok (hcheck.trans h)).1]

/-- Denying warnings can only turn a success into a failure. -/
theorem execution_denyWarnings :
    ((Arguments.execution host { args with denyWarnings := true }).exitCode = 0 ∧
        (args.execution host).exitCode = 0 ∧
        (Arguments.execution host { args with denyWarnings := true }).output =
          (args.execution host).output) ∨
      ((Arguments.execution host { args with denyWarnings := true }).exitCode = 1 ∧
        (Arguments.execution host { args with denyWarnings := true }).output = "") := by
  cases h : host.check { args with denyWarnings := true } with
  | error failure => exact .inr (execution_of_error h)
  | ok report =>
      obtain ⟨hexit, houtput⟩ := execution_of_ok h
      obtain ⟨hexit', houtput'⟩ := execution_of_ok (Host.check_of_denyWarnings h)
      exact .inl ⟨hexit, hexit', houtput.trans houtput'.symm⟩

end Arguments

/-- A listing has a line for each connection. -/
theorem splitOn_listing {args : Arguments} (report : Report) (h : args.connections = true) :
    (listing args report).toList.splitOn '\n' =
      report.connections.map (fun c => (toString c).toList) ++ [[]] := by
  have hlines : ∀ l ∈ report.connections.map toString, '\n' ∉ l.toList :=
    List.forall_mem_map.2 fun c _ => c.newline_notMem_toString
  have hlisting : listing args report =
      String.join ((report.connections.map toString).map (· ++ "\n")) := by
    rw [listing, if_pos h, List.map_map]
    rfl
  rw [hlisting, splitOn_join_lines hlines, List.map_map]
  rfl

/-- A passing check draws the flows in the order of the lines that declare them. -/
theorem connections_of_check {settings : Settings} {source : String} {report : Report}
    (h : settings.check source = .ok report) :
    report.connections =
      ((Statement.scan source).filterMap Statement.flow?).filterMap fun f =>
        (report.diagram.outcome f).connection? := by
  rw [Settings.check_eq] at h
  split at h
  · exact absurd h (by simp)
  · rw [← Except.ok.inj h, ← Document.flows_build]
    dsimp only
    rw [Diagram.connections_eq, Diagram.outcomes, List.filterMap_map]
    rfl

/-- **What a run comes to.**  It ends as the settings and the input decide, in that order: the first
configuration file in question gives the settings or ends the run.  The exit code is 0 if the
settings and the input can be read and the check passes, with warnings denied if the settings or the
command line say so, and otherwise 1.  Only a run that goes well and is asked to writes on standard
output, and then a line for each connection in the order of the flows.  So asking for the
connections does not change the exit code, and denying warnings can only turn a success into a
failure that writes nothing. -/
theorem execution_as_configured (host : Host) (args : Arguments) :
    (∀ outcome, host.Ends args outcome ↔ host.check args = outcome) ∧
    ((args.execution host).exitCode = 0 ↔
      ∃ chosen settings source report, host.Chooses args.config chosen ∧
        host.Loads chosen (.ok settings) ∧ host.files.HoldsText args.input source ∧
        (settings.denying args.denyWarnings).check source = .ok report) ∧
    ((args.execution host).exitCode = 0 ∨ (args.execution host).exitCode = 1) ∧
    ((args.execution host).exitCode = 0 ∧ args.connections = true ∧
        (∃ source report, host.files.HoldsText args.input source ∧
          host.Ends args (.ok report) ∧
          report.connections =
            ((Statement.scan source).filterMap Statement.flow?).filterMap
              (fun f => (report.diagram.outcome f).connection?) ∧
          (args.execution host).output.toList.splitOn '\n' =
            report.connections.map (fun c => (toString c).toList) ++ [[]]) ∨
      ¬((args.execution host).exitCode = 0 ∧ args.connections = true) ∧
        (args.execution host).output = "") ∧
    (∀ flag, (Arguments.execution host { args with connections := flag }).exitCode =
      (args.execution host).exitCode) ∧
    (((Arguments.execution host { args with denyWarnings := true }).exitCode = 0 ∧
        (args.execution host).exitCode = 0 ∧
        (Arguments.execution host { args with denyWarnings := true }).output =
          (args.execution host).output) ∨
      ((Arguments.execution host { args with denyWarnings := true }).exitCode = 1 ∧
        (Arguments.execution host { args with denyWarnings := true }).output = "")) := by
  refine ⟨fun _ => Host.ends_iff, ?_, ?_, ?_, Arguments.exitCode_connections,
    Arguments.execution_denyWarnings⟩
  · rw [Arguments.exitCode_eq_zero_iff]
    simp only [Host.check_eq_ok_iff]
    constructor
    · rintro ⟨report, chosen, settings, source, h⟩
      exact ⟨chosen, settings, source, report, h⟩
    · rintro ⟨chosen, settings, source, report, h⟩
      exact ⟨report, chosen, settings, source, h⟩
  · cases h : host.check args with
    | error failure => exact .inr (Arguments.execution_of_error h).1
    | ok report => exact .inl (Arguments.execution_of_ok h).1
  · cases h : host.check args with
    | error failure =>
        obtain ⟨hexit, houtput⟩ := Arguments.execution_of_error h
        exact .inr ⟨by simp [hexit], houtput⟩
    | ok report =>
        obtain ⟨hexit, houtput⟩ := Arguments.execution_of_ok h
        cases hasked : args.connections with
        | false =>
            rw [listing, if_neg (by simp [hasked])] at houtput
            exact .inr ⟨by simp, houtput⟩
        | true =>
            obtain ⟨_, settings, source, -, -, hsource, hcheck⟩ := Host.check_eq_ok_iff.1 h
            refine .inl ⟨hexit, rfl, source, report, hsource, Host.ends_iff.2 h,
              connections_of_check hcheck, ?_⟩
            rw [houtput, splitOn_listing report hasked]

/-- A host with files at some relative paths.  The platform offers `config.toml`, and every text in
a configuration file stands for the default settings. -/
def hostOf (files : List (String × ByteArray)) : Host where
  files := (FileTree.ofPaths files).lookup
  platformConfig := some "config.toml"
  decode := fun _ => .ok {}

/-- A document with one flow, and the configuration file that the platform offers. -/
def shop : List (String × ByteArray) :=
  [("shop.evm",
      "ELEMENT: 1, Command, A, 1;0\nELEMENT: 2, Event, B, 1;-1\nFLOW: 1 to 2".toUTF8),
   ("config.toml", .empty)]

/-- The same files, and a directory in place of the project's configuration file. -/
def blockedShop : List (String × ByteArray) := ("eventgrid/config.toml/old", .empty) :: shop

/-- The flow of the shop is listed if that is asked for.  The directory ends the run before the
document is looked at, whatever the platform has to offer. -/
theorem execution_as_configured_shop :
    ((Arguments.execution (hostOf shop) { input := "shop.evm", connections := true }).exitCode = 0 ∧
      (Arguments.execution (hostOf shop) { input := "shop.evm", connections := true }).output =
        "1 (1;0) bottom -> 2 (1;-1) top [solid]\n") ∧
      ((hostOf blockedShop).Ends { input := "shop.evm" } (.error (.file .isADirectory)) ∧
        (Arguments.execution (hostOf blockedShop) { input := "shop.evm" }).exitCode = 1 ∧
        (Arguments.execution (hostOf blockedShop) { input := "shop.evm" }).output = "") := by
  obtain ⟨-, -, -, -, hconnections, -⟩ :=
    execution_as_configured (hostOf shop) { input := "shop.evm" }
  obtain ⟨hends, -, hexit, houtput, -⟩ :=
    execution_as_configured (hostOf blockedShop) { input := "shop.evm" }
  refine ⟨⟨(hconnections true).trans (by decide +kernel), by decide +kernel⟩,
    (hends _).2 (by decide +kernel), hexit.resolve_left (by decide +kernel), ?_⟩
  rcases houtput with ⟨-, hasked, -⟩ | ⟨-, houtput⟩
  · exact absurd hasked Bool.false_ne_true
  · exact houtput

end Program

end EventModel
