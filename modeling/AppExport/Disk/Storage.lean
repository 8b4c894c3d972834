/-
Programs that use a disk, whichever it is. The one in memory is an instance.
-/
import AppExport.Archive.Entry
import AppExport.Disk.Basic

namespace AppExport.Disk

/-- What a file holds. -/
inductive Content where
  | text (s : String)
  | archive (entries : List Archive.Entry)
deriving DecidableEq, Repr

class Storage (m : Type → Type) where
  readText : String → ExceptT Fault m String
  isDirectory : String → m Bool
  /-- Refused if there is something under the path already. -/
  makeDirectory : String → ExceptT Fault m Unit
  write : String → Content → ExceptT Fault m Unit

section InMemory

/-- An operation that changes the disk unless it is refused. -/
def change (operation : Disk Content → Except Fault (Disk Content)) :
    ExceptT Fault (StateM (Disk Content)) Unit := do
  match operation (← get) with
  | .ok d => set d
  | .error e => throw e

instance : Storage (StateM (Disk Content)) where
  readText path := do
    match (← get).read path with
    | .ok (.text s) => return s
    | .ok (.archive _) => throw .notUtf8
    | .error e => throw e
  isDirectory path := return (← get).isDirectory path
  makeDirectory path := change (Disk.makeDirectory path)
  write path content := change (Disk.write path content)

end InMemory

variable {m : Type → Type} [Monad m] [Storage m]

instance {σ : Type} : Storage (StateT σ m) where
  readText path := ExceptT.mk (StateT.lift (Storage.readText path).run)
  isDirectory path := StateT.lift (Storage.isDirectory path)
  makeDirectory path := ExceptT.mk (StateT.lift (Storage.makeDirectory path).run)
  write path content := ExceptT.mk (StateT.lift (Storage.write path content).run)

/-- A refusal to make a directory does not count if there is one. -/
def settle (path : String) (e : Fault) : ExceptT Fault m Unit := do
  let present : Bool ← liftM (Storage.isDirectory path : m Bool)
  unless present do throw e

/-- The first of some directories, with as many of those around it as are missing. -/
def makeAlong : List String → ExceptT Fault m Unit
  | [] => return
  | path :: around =>
    tryCatch (Storage.makeDirectory path) fun e => do
      if e = .notFound then
        makeAlong around
        tryCatch (Storage.makeDirectory path) (settle path)
      else settle path e

/-- A directory and the missing ones around it; there may be one already. -/
def makeDirectories (path : String) : ExceptT Fault m Unit := makeAlong (Path.ancestry path)

end AppExport.Disk
