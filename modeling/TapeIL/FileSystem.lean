import TapeIL.Path

/-!
A file system: a tree of directories and files, and a working directory that relative paths start
from. Only the operations that a command needs are here.
-/

namespace TapeIL

inductive FileError where
  | notFound
  | notDirectory
  | isDirectory
  | nameTooLong
  | invalid
  /-- A failure of the system below, which a file system value does not have. -/
  | system (what : Bytes)
deriving DecidableEq, Repr, Inhabited

def FileError.message : FileError → Bytes
  | .notFound => text "no such file or directory"
  | .notDirectory => text "not a directory"
  | .isDirectory => text "is a directory"
  | .nameTooLong => text "file name too long"
  | .invalid => text "invalid argument"
  | .system what => what

inductive FileCall where
  | stat
  | openFile
  | read
deriving DecidableEq, Repr, Inhabited

def FileCall.name : FileCall → Bytes
  | .stat => text "stat"
  | .openFile => text "open"
  | .read => text "read"

/-- A file operation that failed. -/
structure FileFault where
  call : FileCall
  path : Bytes
  cause : FileError
deriving DecidableEq, Repr, Inhabited

def FileFault.message (f : FileFault) : Bytes :=
  f.call.name ++ text " " ++ f.path ++ text ": " ++ f.cause.message

inductive FileKind where
  | file
  | directory
deriving DecidableEq, Repr, Inhabited

namespace FileSystem

inductive Node where
  | file (contents : Bytes)
  | directory
deriving DecidableEq, Repr, Inhabited

def Node.kind : Node → FileKind
  | .file _ => .file
  | .directory => .directory

/-- The names on the way to a node, the innermost first. The root has none. -/
abbrev Place := List Bytes

end FileSystem

structure FileSystem where
  /-- What stands at each place but the root. Of several nodes at one place the first counts. -/
  nodes : List (FileSystem.Place × FileSystem.Node) := []
  workingDirectory : FileSystem.Place := []
deriving DecidableEq, Repr, Inhabited

namespace FileSystem

/-- What stands at a place. The root is a directory. -/
def node? (fs : FileSystem) (place : Place) : Option Node :=
  if place.isEmpty then some .directory else fs.nodes.lookup place

def put (fs : FileSystem) (place : Place) (node : Node) : FileSystem :=
  { fs with nodes := (place, node) :: fs.nodes.filter fun (other, _) => other != place }

/-- The longest name of a file, and the longest path. -/
def maxName : Nat := 255

def maxPath : Nat := 4095

/-- Follows names from a place. All but the last have to lead to directories. -/
def walk (fs : FileSystem) (place : Place) : List Bytes → Except FileError Place
  | [] => .ok place
  | name :: names =>
      match fs.node? place with
      | none => .error .notFound
      | some (.file _) => .error .notDirectory
      | some .directory =>
          if name = text "." then walk fs place names
          else if name = text ".." then walk fs place.tail names
          else if maxName < name.length then .error .nameTooLong
          else walk fs (name :: place) names

/-- The place that a path names. There need not be a node at it. -/
def resolve (fs : FileSystem) (path : Bytes) : Except FileError Place :=
  if path.isEmpty then .error .notFound
  else if path.contains 0 then .error .invalid
  else if maxPath < path.length then .error .nameTooLong
  else
    fs.walk (if path.head? = some Path.slash then [] else fs.workingDirectory)
      ((path.splitOn Path.slash).filter fun name => !name.isEmpty)

def endsInSlash (path : Bytes) : Bool :=
  path.getLast? == some Path.slash

/-- The node that a path names. A slash at the end of the path asks for a directory. -/
def find (fs : FileSystem) (path : Bytes) : Except FileError Node := do
  let place ← fs.resolve path
  match fs.node? place with
  | none => throw .notFound
  | some .directory => return .directory
  | some (.file contents) =>
      if endsInSlash path then throw .notDirectory else return .file contents

def stat (fs : FileSystem) (path : Bytes) : Except FileFault FileKind :=
  match fs.find path with
  | .ok node => .ok node.kind
  | .error e => .error ⟨.stat, path, e⟩

/-- The contents of a file. -/
def read (fs : FileSystem) (path : Bytes) : Except FileFault Bytes :=
  match fs.find path with
  | .ok (.file contents) => .ok contents
  | .ok .directory => .error ⟨.read, path, .isDirectory⟩
  | .error e => .error ⟨.openFile, path, e⟩

/-- Makes or replaces a file. Its directory has to exist. -/
def write (fs : FileSystem) (path contents : Bytes) : Except FileFault FileSystem :=
  match fs.resolve path with
  | .error e => .error ⟨.openFile, path, e⟩
  | .ok place =>
      if endsInSlash path || fs.node? place == some .directory then
        .error ⟨.openFile, path, .isDirectory⟩
      else .ok (fs.put place (.file contents))

/-- A file system whose working directory is empty. -/
def empty : FileSystem :=
  let workingDirectory := [text "work", text "home"]
  { nodes := [(workingDirectory, .directory), (workingDirectory.tail, .directory)]
    workingDirectory }

/-- Makes the directories on the way to a place, and one at it, where there is nothing. -/
def makeDirectories (fs : FileSystem) : Place → FileSystem
  | [] => fs
  | name :: outer =>
      let fs := fs.makeDirectories outer
      if (fs.node? (name :: outer)).isSome then fs else fs.put (name :: outer) .directory

/-- The place of a path that is taken from the working directory and has no dots in it. -/
def placeIn (fs : FileSystem) (path : Bytes) : Place :=
  ((path.splitOn Path.slash).filter fun name => !name.isEmpty).reverse ++ fs.workingDirectory

def addDirectory (fs : FileSystem) (path : Bytes) : FileSystem :=
  fs.makeDirectories (fs.placeIn path)

/-- Adds a file and the directories on the way to it. -/
def addFile (fs : FileSystem) (path contents : Bytes) : FileSystem :=
  let place := fs.placeIn path
  (fs.makeDirectories place.tail).put place (.file contents)

/-- The files under the working directory, by their paths from there. -/
def files (fs : FileSystem) : List (Bytes × Bytes) :=
  fs.nodes.filterMap fun (place, node) =>
    match node with
    | .file contents =>
        let depth := place.length - fs.workingDirectory.length
        if place.drop depth = fs.workingDirectory then
          some (Bytes.join (text "/") (place.take depth).reverse, contents)
        else none
    | .directory => none

/-- The files under the working directory that are new or differ from those of `before`. -/
def changes (fs before : FileSystem) : List (Bytes × Bytes) :=
  let old := before.files
  fs.files.filter fun (path, contents) => old.lookup path != some contents

end FileSystem
end TapeIL
