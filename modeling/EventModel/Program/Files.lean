import EventModel.Check.Failure

/-!
# Files

The program only reads files, so all it has to know of a file system is what is found at a
path.  One such file system is a tree of files: directories exist for the sake of the files
that are reached through them.  A relative path starts in that tree, any other one in the
tree of the whole system, of which only a few standard places are known.
-/

namespace EventModel.Program

/-- What is found at a path. -/
inductive FileEntry
  | file (content : ByteArray)
  | directory
  | unreadable (reason : FileFault)
  | absent (reason : FileFault)

/-- A file system, as far as it can be seen by reading. -/
abbrev FileSystem := String → FileEntry

namespace FileSystem

/-- Whether there is anything at a path. -/
def holds (fs : FileSystem) (path : String) : Bool :=
  match fs path with
  | .absent _ => false
  | .file _ | .directory | .unreadable _ => true

/-- The text of a file. -/
def readText (fs : FileSystem) (path : String) : Except FileFault String :=
  match fs path with
  | .file content =>
    match String.fromUTF8? content with
    | some text => .ok text
    | none => .error .notText
  | .directory => .error .isADirectory
  | .unreadable reason | .absent reason => .error reason

end FileSystem

/-- A tree of files and directories, each with the names that lead to it. -/
structure FileTree where
  files : List (List String × ByteArray)
  directories : List (List String)
  /-- Whether there is nothing above the tree. -/
  isTopmost : Bool := false

namespace FileTree

/-- The longest name that a file can have, in bytes. -/
def nameLimit : Nat := 255

/-- The longest path that can be looked up, in bytes. -/
def pathLimit : Nat := 4095

/-- The tree of the whole system: its standard directories, and the empty null device. -/
def system : FileTree where
  files := [(["dev", "null"], .empty)]
  directories :=
    ["bin", "boot", "dev", "etc", "home", "lib", "media", "mnt", "opt", "proc", "root", "run",
      "sbin", "srv", "sys", "tmp", "usr", "var"].map ([·])
  isTopmost := true

/-- What is found under a list of names.  Above the tree there are directories, and nothing
is known of what else is in them. -/
def entryAt (tree : FileTree) (names : List String) : FileEntry :=
  match tree.files.find? (·.1 == names) with
  | some (_, content) => .file content
  | none =>
    if names.all (· == "..") || tree.directories.contains names then .directory
    else .absent .notFound

/-- The names that lead to the directory above a place; the topmost one is above itself. -/
def above (isTopmost : Bool) (names : List String) : List String :=
  match names.getLast? with
  | none => if isTopmost then [] else [".."]
  | some ".." => names ++ [".."]
  | some _ => names.dropLast

/-- Whether a name in a path stays where it is. -/
def staysHere (name : String) : Bool := name == "" || name == "."

/-- Follows the rest of a path from a place in the tree. -/
def follow (tree : FileTree) (here : List String) : List String → FileEntry
  | [] => tree.entryAt here
  | name :: path =>
    match tree.entryAt here with
    | .absent reason | .unreadable reason => .absent reason
    | .file _ => .absent .notADirectory
    | .directory =>
      if staysHere name then tree.follow here path
      else if name == ".." then tree.follow (above tree.isTopmost here) path
      else if nameLimit < name.utf8ByteSize then .absent .nameTooLong
      else tree.follow (here ++ [name]) path

/-- What is found at a path that starts in the tree, or at the top of the system. -/
def lookup (tree : FileTree) : FileSystem := fun path =>
  if path.toList.contains '\x00' then .absent .nulInPath
  else if pathLimit < path.utf8ByteSize then .absent .nameTooLong
  else
    match path.toList.splitOn '/' with
    | [[]] => .absent .notFound
    | [] :: names => system.follow [] (names.map String.ofList)
    | names => tree.follow [] (names.map String.ofList)

/-- The places that a relative path goes through, from the start to its end. -/
def places (path : String) : List (List String) :=
  let step (here : List String) (name : String) : List String :=
    if staysHere name then here
    else if name == ".." then above false here
    else here ++ [name]
  let names := (path.toList.splitOn '/').map String.ofList
  (List.range (names.length + 1)).map fun n => (names.take n).foldl step []

/-- The tree of the files that are put at some relative paths, one after another. -/
def ofPaths (files : List (String × ByteArray)) : FileTree where
  files := files.reverse.map fun (path, content) => ((places path).getLast?.getD [], content)
  directories := files.flatMap fun (path, _) => (places path).dropLast

end FileTree

end EventModel.Program
