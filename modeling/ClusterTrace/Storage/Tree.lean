import ClusterTrace.Keyed
import ClusterTrace.Storage.Path
import ClusterTrace.Text.Utf8

/-!
# Files and directories

A `Node` is a file or a directory with named entries, in the order in which the directory lists
them. A `Storage` is a tree of nodes with the directory that relative paths start from. Everything
that is read from files is a function of it, and writing a file gives another one.

Names and paths are Unicode text. A file system may also hold names whose bytes are no text, which
are decoded with a loss where they are compared or reported. Those are left out here; on names that
are text this decoding changes nothing.
-/

namespace ClusterTrace

/-- A file or a directory. -/
inductive Node where
  | file (content : Bytes)
  /-- A directory with its entries in the order in which it lists them. -/
  | directory (entries : List (String × Node))

/-- Why a file cannot be used. -/
inductive FileFault where
  | notFound
  /-- A file stands where a directory should. -/
  | notDirectory
  /-- A directory stands where a file should. -/
  | isDirectory
  | nameTooLong
  /-- The path holds the character of number zero. -/
  | nulInPath
  | notText
deriving DecidableEq

def FileFault.message : FileFault → String
  | .notFound => "No such file or directory (os error 2)"
  | .notDirectory => "Not a directory (os error 20)"
  | .isDirectory => "Is a directory (os error 21)"
  | .nameTooLong => "File name too long (os error 36)"
  | .nulInPath => "file name contained an unexpected NUL byte"
  | .notText => "stream did not contain valid UTF-8"

namespace Node

def isFile : Node → Bool
  | file _ => true
  | directory _ => false

/-- The entries of a directory, of which a file has none. -/
def entries : Node → List (String × Node)
  | file _ => []
  | directory entries => entries

def child? (entries : List (String × Node)) (name : String) : Option Node :=
  (entries.find? fun e => e.1 = name).map Prod.snd

/-- The number of bytes that the name of an entry may have. -/
def maxNameSize : Nat := 255

/-- Follows the parts of a path from a node whose directories above are given, the nearest one
first. Above the topmost directory lies nothing but itself. -/
def follow (above : List Node) (here : Node) : List String → Except FileFault Node
  | [] => .ok here
  | part :: rest =>
    match here with
    | file _ => .error .notDirectory
    | directory entries =>
      if Path.isVoid part then follow above here rest
      else if part = ".." then
        match above with
        | [] => follow [] here rest
        | up :: above => follow above up rest
      else if maxNameSize < part.utf8ByteSize then .error .nameTooLong
      else
        match child? entries part with
        | none => .error .notFound
        | some node => follow (here :: above) node rest

/-- Puts a node at the end of names that lead down, through new directories where there are none. -/
def place (node : Node) : List String → Node → Node
  | [], _ => node
  | name :: rest, here =>
    let below := (child? here.entries name).getD (directory [])
    directory (Keyed.put name (place node rest below) here.entries)

end Node

/-- Files and directories, and the directory that relative paths start from. -/
structure Storage where
  /-- The topmost directory. -/
  root : Node
  /-- The names that lead to the directory that relative paths start from. -/
  here : List String

namespace Storage

/-- A directory that relative paths start from, alone in the topmost one. -/
def ofNode (node : Node) : Storage := ⟨.directory [("here", node)], ["here"]⟩

/-- The number of bytes from which on a path is too long. -/
def maxPathSize : Nat := 4096

/-- Why a path cannot be one, whatever there is. -/
def pathFault? (path : String) : Option FileFault :=
  if path.toList.contains '\x00' then some .nulInPath
  else if path = "" then some .notFound
  else if maxPathSize ≤ path.utf8ByteSize then some .nameTooLong
  else none

/-- The parts of a path from the topmost directory on. -/
def absoluteParts (s : Storage) (path : String) : List String :=
  if Path.isAbsolute path then Path.parts path else s.here ++ Path.parts path

/-- What is at a path. -/
def lookup (s : Storage) (path : String) : Except FileFault Node :=
  match pathFault? path with
  | some fault => .error fault
  | none => Node.follow [] s.root (s.absoluteParts path)

/-- The storage with a node at a path that can be followed but for its last part. -/
def place (s : Storage) (path : String) (node : Node) : Storage :=
  { s with root := Node.place node (Path.resolve (s.absoluteParts path)) s.root }

def write (s : Storage) (path : String) (content : Bytes) : Storage := s.place path (.file content)

/-- The entries of the directory at a path. An entry whose own path is too long cannot be used. -/
def list (s : Storage) (path : String) : Except FileFault (List (String × Node)) :=
  match s.lookup path with
  | .ok (.directory entries) =>
    .ok (entries.filter fun e => (pathFault? (Path.join path e.1)).isNone)
  | .ok (.file _) => .error .notDirectory
  | .error fault => .error fault

def read (s : Storage) (path : String) : Except FileFault Bytes :=
  match s.lookup path with
  | .ok (.file content) => .ok content
  | .ok (.directory _) => .error .isDirectory
  | .error fault => .error fault

def readText (s : Storage) (path : String) : Except FileFault String :=
  (s.read path).bind fun content =>
    match Utf8.decode? content with
    | .ok text => .ok (String.ofList text)
    | .error _ => .error .notText

/-- The path of the directory that a path without slashes at its end lies in. -/
def parentPath (path : String) : String :=
  match Text.splitFirst? '/' path.toList.reverse with
  | some (_, []) => "/"
  | some (_, above) => String.ofList above.reverse
  | none => "."

/-- A path without the slashes at its end. -/
def barePath (path : String) : String :=
  String.ofList (path.toList.reverse.dropWhile (· = '/')).reverse

/-- Why no file can be created at a path, if it cannot. A path that ends in a slash or a dot names a
directory. -/
def createFault? (s : Storage) (path : String) : Option FileFault :=
  let bare := barePath path
  let last := (Path.parts bare).getLast?.getD ""
  match pathFault? path, s.list (parentPath bare) with
  | some fault, _ => some fault
  | none, .error fault => some fault
  | none, .ok _ =>
    if bare ≠ path ∨ last = "." ∨ last = ".." then some .isDirectory
    else
      match s.lookup path with
      | .ok (.directory _) => some .isDirectory
      | .error .nameTooLong => some .nameTooLong
      | _ => none

end Storage

end ClusterTrace
