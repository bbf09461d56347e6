/-!
# Files

The input set may come from a file. Reading needs no more of a file system than
the text that stands at a path, or the reason why there is none.

A path is walked name by name, from the root or from the directory that the
program was started in. What is wrong with the first name that leads nowhere is
the reason, even if later names would lead back.
-/

namespace ResourceWatch

/-- Why a file could not be read. -/
inductive FileFault where
  | notFound
  | notDirectory
  | isDirectory
  | nameTooLong
  /-- A zero byte stands in the path, so it was not even looked for. -/
  | zeroByte
deriving DecidableEq, Repr

namespace FileFault

/-- The system's number for a fault. It has none for what it was not asked. -/
def code? : FileFault → Option Nat
  | .notFound => some 2
  | .notDirectory => some 20
  | .isDirectory => some 21
  | .nameTooLong => some 36
  | .zeroByte => none

def kind : FileFault → String
  | .notFound => "NotFound"
  | .notDirectory => "NotADirectory"
  | .isDirectory => "IsADirectory"
  | .nameTooLong => "InvalidFilename"
  | .zeroByte => "InvalidInput"

def words : FileFault → String
  | .notFound => "No such file or directory"
  | .notDirectory => "Not a directory"
  | .isDirectory => "Is a directory"
  | .nameTooLong => "File name too long"
  | .zeroByte => "file name contained an unexpected NUL byte"

def text (f : FileFault) : String :=
  match f.code? with
  | some code => s!"{f.words} (os error {code})"
  | none => f.words

end FileFault

/-- What stands at each path. -/
abbrev Files := String → Except FileFault String

/-- What stands at a place of a file system. -/
inductive Place where
  /-- Other places are under it. -/
  | directory
  /-- A file with a text. -/
  | file (content : String)
deriving DecidableEq, Repr

/-- A file system: what stands at the end of each way from the root. -/
structure Tree where
  /-- What stands there, if anything does. The root is a directory. -/
  place? : List String → Option Place
  /-- The way to the directory that the program was started in. -/
  start : List String

namespace Tree

/-- How many bytes a path may not have. -/
def pathLimit : Nat := 4096

/-- How many bytes a name may have. -/
def nameLimit : Nat := 255

/-- The names between the slashes of a path. Where two slashes adjoin, and where
one begins or ends the path, the name is empty. -/
def names (path : String) : List String :=
  (path.toList.foldr (fun c acc =>
    if c = '/' then [] :: acc
    else match acc with
      | [] => [[c]]
      | p :: ps => (c :: p) :: ps) [[]]).map String.ofList

/-- Go on by one name from a place. An empty name and a dot stay, and two dots
lead to the directory above; all of them need a directory to be in. -/
def step (t : Tree) (here : List String × Place) (name : String) :
    Except FileFault (List String × Place) :=
  match here with
  | (_, .file _) => .error .notDirectory
  | (way, .directory) =>
    let place (way : List String) := (t.place? way).elim (.error .notFound) fun p => .ok (way, p)
    if name = "" ∨ name = "." then .ok here
    else if name = ".." then place way.dropLast
    else if nameLimit < name.utf8ByteSize then .error .nameTooLong
    else place (way ++ [name])

def walk (t : Tree) (path : String) : Except FileFault Place := do
  let way := if path.startsWith "/" then [] else t.start
  return (← (names path).foldlM t.step (way, .directory)).2

def read (t : Tree) (path : String) : Except FileFault String := do
  if path.toList.contains '\x00' then throw .zeroByte
  if pathLimit ≤ path.utf8ByteSize then throw .nameTooLong
  if path.isEmpty then throw .notFound
  match ← t.walk path with
  | .directory => throw .isDirectory
  | .file content => return content

/-- The directories that every system has, by the names under each other. -/
def standardDirectories : List (List String) :=
  let under (name : String) (names : List String) := [name] :: names.map ([name, ·])
  [[]] ++
    ["bin", "boot", "home", "lib", "media", "mnt", "opt", "root", "run", "sbin", "srv",
      "tmp"].map ([·]) ++
    under "dev" ["fd", "mqueue", "pts", "shm"] ++
    under "etc" ["default", "init.d", "profile.d", "ssl"] ++
    under "proc" ["1", "net", "self", "sys"] ++
    under "sys" ["block", "bus", "class", "dev", "devices", "fs", "kernel", "module"] ++
    under "usr" ["bin", "include", "lib", "local", "sbin", "share", "src"] ++
    under "var" ["cache", "lib", "local", "lock", "log", "mail", "opt", "run", "spool", "tmp"]

/-- The files that every system has: the null device, which holds nothing, and
notes on the system itself, none of which is an input set. -/
def standardFiles : List (List String × String) :=
  [ (["dev", "null"], ""),
    (["etc", "group"], "root:x:0:\n"),
    (["etc", "hostname"], "localhost\n"),
    (["etc", "hosts"], "127.0.0.1\tlocalhost\n"),
    (["etc", "passwd"], "root:x:0:0:root:/root:/bin/sh\n"),
    (["proc", "version"], "Linux version\n") ]

/-- A system without any files but those that every system has. -/
def bare : Tree where
  place? way :=
    match standardFiles.lookup way with
    | some content => some (.file content)
    | none => if standardDirectories.contains way then some .directory else none
  start := ["root"]

end Tree

namespace Files

/-- The files of a bare system. -/
def empty : Files := Tree.bare.read

def withFile (files : Files) (path content : String) : Files := fun p =>
  if p = path then .ok content else files p

end Files

end ResourceWatch
