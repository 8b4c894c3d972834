/-
Paths as text: names with slashes between them, from the root if there is a slash in front. Empty
names and `.` say nothing, except for a `.` in front.
-/
import AppExport.Text.Pieces

namespace AppExport.Disk.Path

def isAbsolute (path : String) : Bool := path.toList.head? = some '/'

def endsInSlash (path : String) : Bool := path.toList.getLast? = some '/'

/-- A path that starts at a directory; an absolute one does not. -/
def join (directory path : String) : String :=
  if isAbsolute path || directory.isEmpty then path
  else if endsInSlash directory then directory ++ path
  else directory ++ "/" ++ path

/-- What stands between the slashes. -/
def pieces (path : String) : List String := (Text.pieces '/' path.toList).map String.ofList

/-- The names on the way, empty ones left out. -/
def names (path : String) : List String := (pieces path).filter (!·.isEmpty)

/-- Pieces without those at the end that say nothing. -/
def trimmed (pieces : List String) : List String :=
  (pieces.reverse.dropWhile fun piece => piece = "" ∨ piece = ".").reverse

/-- The path of the directory that holds what a path leads to; the root and the empty path have
none. -/
def parent? (path : String) : Option String :=
  match pieces path with
  | [] => none
  | first :: rest =>
    let rest := trimmed rest
    if isAbsolute path then
      if rest.isEmpty then none else some ("/" ++ "/".intercalate (trimmed rest.dropLast))
    else if path.isEmpty then none
    else if rest.isEmpty then some ""
    else some ("/".intercalate (first :: trimmed rest.dropLast))

/-- A path and those of the directories around it, the outermost last. Each has fewer pieces than
the one before. -/
def ancestryWithin : (steps : Nat) → String → List String
  | 0, _ => []
  | steps + 1, path =>
    if path.isEmpty then []
    else
      path :: match parent? path with
        | some parent => ancestryWithin steps parent
        | none => []

def ancestry (path : String) : List String := ancestryWithin (pieces path).length path

end AppExport.Disk.Path
