import SpanWire.Text.Parts

/-! The files a run sees: a tree below the directory it runs in. -/
namespace SpanWire.Cli

/-- Why the system refuses a request for a file. -/
inductive SystemError
  | notFound
  | notDirectory
  | isDirectory
  | nameTooLong
  | permissionDenied
  | other (text : String)
  deriving DecidableEq, Repr

def SystemError.message : SystemError → String
  | .notFound => "No such file or directory (os error 2)"
  | .notDirectory => "Not a directory (os error 20)"
  | .isDirectory => "Is a directory (os error 21)"
  | .nameTooLong => "File name too long (os error 36)"
  | .permissionDenied => "Permission denied (os error 13)"
  | .other text => text

/-- How far a place is closed, and why. Through a closed directory leads no way. In one that is
only to be read no file is made, and a file that is only to be read keeps its content. -/
inductive Lock
  | free
  | readOnly (why : SystemError)
  | closed (why : SystemError)
  deriving DecidableEq, Repr

namespace Lock

def toRead : Lock → Except SystemError Unit
  | free | readOnly _ => .ok ()
  | closed why => .error why

/-- What may be written may be read as well. -/
def toWrite : Lock → Except SystemError Unit
  | free => .ok ()
  | readOnly why | closed why => .error why

theorem toRead_of_toWrite {l : Lock} (h : l.toWrite = .ok ()) : l.toRead = .ok () := by
  cases l with
  | free => rfl
  | readOnly why | closed why => contradiction

end Lock

/-- What there is about files besides their content: the directories that are there whatever is in
them, and how far each place is closed. -/
class Mount where
  directories : List (List String)
  lock : List String → Lock

/-- Unless said otherwise, directories are there for the files in them, and all places are free. -/
instance : Mount := ⟨[], fun _ => .free⟩

/-- Files by the names on the way to them. -/
structure Files where
  entries : List (List String × ByteArray)
  [mount : Mount]

/-- What a path leads to. A free place is a name that an existing directory does not have. -/
inductive Place
  | file (way : List String)
  | directory (way : List String)
  | free (way : List String)
  deriving DecidableEq, Repr

namespace Files

def get? (files : Files) (way : List String) : Option ByteArray :=
  (files.entries.find? (·.1 = way)).map (·.2)

def lock (files : Files) (way : List String) : Lock :=
  files.mount.lock way

def hasDirectory (files : Files) (way : List String) : Bool :=
  files.mount.directories.any (way.isPrefixOf ·) ||
    files.entries.any fun e => way.isPrefixOf e.1 && way.length < e.1.length

/-- Gives a file its content, in the place it has or in a new one. -/
def put (files : Files) (way : List String) (content : ByteArray) : Files :=
  if (files.get? way).isSome then
    { files with entries := files.entries.map fun e => if e.1 = way then (way, content) else e }
  else { files with entries := files.entries ++ [(way, content)] }

/-- The names between the slashes of a path. -/
def namesOfPath (path : String) : List String :=
  Text.parts '/' path

/-- The names that lead from the root of all files, which no way leads out of. -/
def root : List String := ["/"]

/-- The directory above another. Above the tree is a way of its own, of steps upwards. -/
def above (way : List String) : List String :=
  if way = root then root
  else if way.all (· = "..") then way ++ [".."]
  else way.dropLast

/-- Follows names from a directory. To look for a name in it, the directory has to be open. -/
def follow (files : Files) (way : List String) : List String → Except SystemError Place
  | [] => .ok (.directory way)
  | name :: names =>
    if name = "" then follow files way names
    else do
      (files.lock way).toRead
      if name = "." then follow files way names
      else if name = ".." then follow files (above way) names
      else if 255 < name.utf8ByteSize then .error .nameTooLong
      else
        let next := way ++ [name]
        if files.hasDirectory next then follow files next names
        else if (files.get? next).isSome then
          if names = [] then .ok (.file next) else .error .notDirectory
        else if names = [] then .ok (.free next)
        else .error .notFound

/-- What the names of a path lead to. A path that starts with a slash starts at the root. -/
def locate (files : Files) (path : String) (names : List String) : Except SystemError Place :=
  if 4095 < path.utf8ByteSize then .error .nameTooLong
  else if path.toList.head? = some '/' then files.follow root names
  else files.follow [] names

/-- A directory can be opened, but not read. -/
inductive ReadError
  | atOpen (why : SystemError)
  | atRead (why : SystemError)
  deriving DecidableEq, Repr

def read (files : Files) (path : String) : Except ReadError ByteArray :=
  match files.locate path (namesOfPath path) with
  | .error why => .error (.atOpen why)
  | .ok (.free _) => .error (.atOpen .notFound)
  | .ok (.directory way) => do
    (files.lock way).toRead.mapError .atOpen
    .error (.atRead .isDirectory)
  | .ok (.file way) => do
    (files.lock way).toRead.mapError .atOpen
    match files.get? way with
    | some content => .ok content
    | none => .error (.atOpen .notFound)

/-- The names to follow when a file is written. Behind the last of them stands no slash: where one
does, a directory is meant, and it is enough to reach the one that this would be in. -/
def namesToWrite (path : String) : List String :=
  let names := namesOfPath path
  if names.getLast? = some "" then (names.reverse.dropWhile (· = "")).tail.reverse ++ ["."]
  else names

/-- A new file needs a directory that may be written. -/
def write (files : Files) (path : String) (content : ByteArray) : Except SystemError Files :=
  match files.locate path (namesToWrite path) with
  | .error why => .error why
  | .ok (.directory _) => .error .isDirectory
  | .ok (.free way) => do
    (files.lock way.dropLast).toWrite
    (files.lock way).toWrite
    return files.put way content
  | .ok (.file way) => do
    (files.lock way).toWrite
    return files.put way content

end Files

end SpanWire.Cli
