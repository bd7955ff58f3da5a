import EventModel.Diagnostic.Basic

/-!
# Failures

A check fails when a file cannot be read, when its configuration is at fault, or because of
what it has to report on the document.
-/

namespace EventModel

/-- Why a file cannot be read. -/
inductive FileFault
  | notFound
  | notADirectory
  | isADirectory
  | nameTooLong
  | nulInPath
  | notText
  | other (reason : String)
deriving DecidableEq, Repr

/-- The wording of a file fault. -/
def FileFault.message : FileFault → String
  | .notFound => "No such file or directory (os error 2)"
  | .notADirectory => "Not a directory (os error 20)"
  | .isADirectory => "Is a directory (os error 21)"
  | .nameTooLong => "File name too long (os error 36)"
  | .nulInPath => "file name contained an unexpected NUL byte"
  | .notText => "stream did not contain valid UTF-8"
  | .other reason => reason

/-- What is wrong with a configuration. -/
inductive ConfigurationFault
  | missing (path : String)
  | malformed
  | other (reason : String)
deriving DecidableEq, Repr

/-- The wording of a configuration fault. -/
def ConfigurationFault.message : ConfigurationFault → String
  | .missing path => s!"Missing configuration file: {path}"
  | .malformed => "Failed to parse TOML configuration"
  | .other reason => reason

/-- Why a check fails. -/
inductive Failure
  | file (fault : FileFault)
  | configuration (fault : ConfigurationFault)
  | diagnostics (found : List Diagnostic) (source : String)
deriving DecidableEq, Repr

namespace Failure

/-- The wording of a failure. -/
def message : Failure → String
  | file fault => s!"I/O error: {fault.message}"
  | configuration fault => s!"Configuration error: {fault.message}"
  | diagnostics found _ => Diagnostic.summary found

end Failure

end EventModel
