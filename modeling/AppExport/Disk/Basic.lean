/-
A disk in memory: files and directories by where they are. Every operation takes a path and finds
its way name by name, so it is refused at the first name that leads nowhere.
-/
import AppExport.Disk.Fault
import AppExport.Disk.Path

namespace AppExport

/-- The names from the innermost to that below the root. -/
abbrev Disk.Location := List String

inductive Disk.Item (α : Type) where
  | directory
  | file (content : α)
deriving DecidableEq, Repr

structure Disk (α : Type) where
  items : List (Disk.Location × Disk.Item α)
  /-- The directory from which relative paths start. -/
  here : Disk.Location

namespace Disk

variable {α : Type}

/-- A disk with nothing but a working directory, which is not the root. -/
def blank : Disk α := ⟨[(["work"], .directory)], ["work"]⟩

def item? (d : Disk α) (location : Location) : Option (Item α) :=
  if location.isEmpty then some .directory else d.items.lookup location

/-- An item in the place of what was there. -/
def put (location : Location) (item : Item α) (d : Disk α) : Disk α :=
  { d with items := (location, item) :: d.items.filter (·.1 != location) }

/-! ## Ways -/

/-- The longest name, in bytes. -/
def longestName : Nat := 255

/-- The longest path, in bytes. -/
def longestPath : Nat := 4095

/-- What a directory has under a name. -/
def find? (d : Disk α) (location : Location) (name : String) : Except Fault (Option (Item α)) :=
  if longestName < name.utf8ByteSize then .error .nameTooLong
  else .ok (d.item? (name :: location))

/-- The directory one name further. -/
def step (d : Disk α) (location : Location) (name : String) : Except Fault Location :=
  if name = "." then .ok location
  else if name = ".." then .ok location.tail
  else do
    match ← d.find? location name with
    | some .directory => .ok (name :: location)
    | some (.file _) => .error .notDirectory
    | none => .error .notFound

/-- Where a path leads. -/
inductive End where
  /-- A directory, by dots or as the root. -/
  | directory (location : Location)
  /-- A name in a directory, of something or of nothing yet. -/
  | name (location : Location) (name : String)
deriving DecidableEq, Repr

def follow (d : Disk α) (path : String) : Except Fault End :=
  if '\x00' ∈ path.toList then .error .nulInName
  else if path.isEmpty then .error .notFound
  else if longestPath < path.utf8ByteSize then .error .nameTooLong
  else
    let names := Path.names path
    match names.getLast? with
    | none => .ok (.directory [])
    | some last => do
      let start := if Path.isAbsolute path then [] else d.here
      let location ← names.dropLast.foldlM d.step start
      if last = "." ∨ last = ".." then return .directory (← d.step location last)
      else return .name location last

/-! ## Operations -/

def read (d : Disk α) (path : String) : Except Fault α := do
  match ← d.follow path with
  | .directory _ => .error .isDirectory
  | .name location name =>
    match ← d.find? location name with
    | none => .error .notFound
    | some .directory => .error .isDirectory
    | some (.file content) =>
      if Path.endsInSlash path then .error .notDirectory else .ok content

def isDirectory (d : Disk α) (path : String) : Bool :=
  match d.follow path with
  | .ok (.directory _) => true
  | .ok (.name location name) =>
    match d.find? location name with
    | .ok (some .directory) => true
    | _ => false
  | .error _ => false

def makeDirectory (path : String) (d : Disk α) : Except Fault (Disk α) := do
  match ← d.follow path with
  | .directory _ => .error .taken
  | .name location name =>
    match ← d.find? location name with
    | some _ => .error .taken
    | none => .ok (d.put (name :: location) .directory)

/-- A file with a content, new or in the place of an earlier one. -/
def write (path : String) (content : α) (d : Disk α) : Except Fault (Disk α) := do
  match ← d.follow path with
  | .directory _ => .error .isDirectory
  | .name location name =>
    if Path.endsInSlash path then .error .isDirectory
    else
      match ← d.find? location name with
      | some .directory => .error .isDirectory
      | _ => .ok (d.put (name :: location) (.file content))

/-! ## Contents -/

/-- The path to a location from the working directory, if it is below it. -/
def pathTo? (d : Disk α) (location : Location) : Option String :=
  if d.here.isSuffixOf location then
    some ("/".intercalate (location.take (location.length - d.here.length)).reverse)
  else none

/-- The files below the working directory, by their paths from it. -/
def files (d : Disk α) : List (String × α) :=
  d.items.filterMap fun (location, item) =>
    match item with
    | .directory => none
    | .file content => (d.pathTo? location).map (·, content)

end Disk
end AppExport
