import ClusterTrace.Text.Split

/-!
# Paths

A path is kept as it was written. Its parts lie between slashes; empty parts and single dots stand
for nothing, two dots for the directory above.
-/

namespace ClusterTrace.Path

/-- The parts of a path between its slashes. -/
def parts (path : String) : List String := (Text.pieces '/' path.toList).map String.ofList

/-- The part stands for nothing. -/
def isVoid (part : String) : Bool := part = "" || part = "."

/-- The path starts at the root. -/
def isAbsolute (path : String) : Bool := path.toList.head? = some '/'

/-- The path of an entry of a directory. -/
def join (dir name : String) : String :=
  if dir = "" || dir.toList.getLast? = some '/' then dir ++ name else dir ++ "/" ++ name

/-- The name at the end of a path, if it ends in one. -/
def fileName? (path : String) : Option String :=
  ((parts path).filter fun part => !isVoid part).getLast?.filter fun part => part ≠ ".."

/-- What a file name holds behind its last dot, if there is anything before that dot. -/
def extension? (name : String) : Option String :=
  let reversed := name.toList.reverse
  match Text.splitFirst? '.' reversed with
  | some (extension, before) =>
    if before = [] then none else some (String.ofList extension.reverse)
  | none => none

/-- Goes down a part, or up for two dots. The names gone down so far are kept in reverse. -/
def enter (names : List String) (part : String) : List String :=
  if isVoid part then names else if part = ".." then names.tail else part :: names

/-- The names that are left of some parts when the dots are worked out. -/
def resolve (parts : List String) : List String := (parts.foldl enter []).reverse

def endsWith (s ending : String) : Bool := ending.toList.isSuffixOf s.toList

def startsWith (s start : String) : Bool := start.toList.isPrefixOf s.toList

end ClusterTrace.Path
