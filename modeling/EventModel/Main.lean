import EventModel.Program.Execution

/-!
# The command line

The outer layer of the program: it looks at the files that matter, executes the program on
what it has found, and writes what is to be written.
-/

namespace EventModel.Program

/-- Looks at a file. -/
def inspect (path : String) : IO FileEntry := do
  try
    return .file (← IO.FS.readBinFile path)
  catch
    | .noFileOrDirectory .. => return .absent .notFound
    | .inappropriateType _ 21 _ => return .directory
    | .inappropriateType .. => return .absent .notADirectory
    | .permissionDenied .. => return .unreadable (.other "Permission denied (os error 13)")
    | other => return .unreadable (.other (toString other))

/-- The directory in which a user keeps configuration files. -/
def configHome? : IO (Option String) := do
  match ← IO.getEnv "XDG_CONFIG_HOME" with
  | some path => if path.startsWith "/" then return some path else homeConfig?
  | none => homeConfig?
where
  homeConfig? : IO (Option String) := do
    return (← IO.getEnv "HOME").map (· ++ "/.config")

/-- The files at some paths, as they are now. -/
def snapshot (paths : List String) : IO FileSystem := do
  let entries ← paths.mapM fun path => return (path, ← inspect path)
  return fun path => (entries.lookup path).getD (.absent .notFound)

end EventModel.Program

open EventModel.Program

def main (words : List String) : IO UInt32 := do
  let platformConfig := (← configHome?).map (· ++ "/eventgrid/config.toml")
  let files ← snapshot (pathsFor platformConfig words)
  let execution := execute { files, platformConfig } words
  for text in execution.remark.toList ++ execution.progress do
    IO.eprintln text
  for notice in execution.notices do
    IO.eprintln notice.text
  for text in execution.closing ++ execution.complaint.toList do
    IO.eprintln text
  IO.print execution.output
  return execution.exitCode.toUInt32
