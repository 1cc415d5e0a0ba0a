/-!
# Reading a grammar file

Why a source cannot be read is one of a few causes. A `Directory` is a handful of text files, each
with its path; reading a path in it fails in the same way as on a disk. That makes it possible to
run the whole program without one. Of the file system around the directory only what every system
has is known: the directories below the root, the empty device and the standard input.
-/

namespace ContextFree

namespace Command

/-- Why a source cannot be read. -/
inductive ReadFault where
  | notFound
  | isDirectory
  | notDirectory
  | nameTooLong
  | notText
  | other (reason : String)
deriving DecidableEq

def ReadFault.message : ReadFault → String
  | notFound => "No such file or directory (os error 2)"
  | isDirectory => "Is a directory (os error 21)"
  | notDirectory => "Not a directory (os error 20)"
  | nameTooLong => "File name too long (os error 36)"
  | notText => "stream did not contain valid UTF-8"
  | other reason => reason

def decode (bytes : ByteArray) : Except ReadFault String :=
  match String.fromUTF8? bytes with
  | some text => .ok text
  | none => .error .notText

/-- Text files in a directory, each with its path from there. -/
structure Directory where
  files : List (String × String)

namespace Directory

def components (path : String) : List String :=
  (path.toList.splitOnP (· = '/')).map String.ofList

/-- Whether a part of a path leads nowhere else. -/
def isIdle (part : String) : Bool := part = "" || part = "."

/-- The directories below the root that every system has. -/
def systemDirectories : List String :=
  ["bin", "boot", "dev", "etc", "home", "lib", "media", "mnt", "opt", "proc", "run", "sbin", "srv",
    "sys", "tmp", "usr", "var"]

/-- Where a path has led so far. -/
inductive Place where
  /-- A directory somewhere above the known one. -/
  | outside
  | root
  /-- A directory below the root. -/
  | system (name : String)
  /-- The known directory, or one inside it. -/
  | directory (path : List String)
  | file (text : String)
  | input

/-- The files with the parts of their paths; of two files at the same place the later one counts. -/
def entries (dir : Directory) : List (List String × String) :=
  (dir.files.map fun (path, text) => ((components path).filter (!isIdle ·), text)).reverse

/-- What stands at a path inside the directory. -/
def lookup (dir : Directory) (path : List String) : Except ReadFault Place :=
  match dir.entries.find? (·.1 = path) with
  | some (_, text) => .ok (.file text)
  | none =>
    if dir.entries.any fun entry => path.isPrefixOf entry.1 then .ok (.directory path)
    else .error .notFound

def maxNameSize : Nat := 255

def maxPathSize : Nat := 4095

/-- The place that a directory is in, if the place is a directory. -/
def parent? : Place → Option Place
  | .file _ | .input => none
  | .outside | .directory [] => some .outside
  | .root | .system _ => some .root
  | .directory path => some (.directory path.dropLast)

/-- What has a name in the directory at a place. -/
def entry (dir : Directory) (place : Place) (name : String) : Except ReadFault Place :=
  match place, name with
  | .root, _ => if name ∈ systemDirectories then .ok (.system name) else .error .notFound
  | .system "dev", "null" => .ok (.file "")
  | .system "dev", "stdin" => .ok .input
  | .directory path, _ => dir.lookup (path ++ [name])
  | _, _ => .error .notFound

/-- Follows one part of a path. A name that is too long is refused only where it could stand. -/
def step (dir : Directory) (place : Place) (part : String) : Except ReadFault Place :=
  match parent? place with
  | none => .error .notDirectory
  | some parent =>
    if isIdle part then .ok place
    else if part = ".." then .ok parent
    else if maxNameSize < part.utf8ByteSize then .error .nameTooLong
    else dir.entry place part

def find (dir : Directory) (path : String) : Except ReadFault Place :=
  if path = "" then .error .notFound
  else if maxPathSize < path.utf8ByteSize then .error .nameTooLong
  else (components path).foldlM dir.step
    (if path.toList.head? = some '/' then .root else .directory [])

/-- Reads the file at a path, with some bytes on the standard input. -/
def read (dir : Directory) (input : ByteArray) (path : String) : Except ReadFault String := do
  match ← dir.find path with
  | .file text => return text
  | .input => decode input
  | _ => throw .isDirectory

end Directory

end Command

end ContextFree
