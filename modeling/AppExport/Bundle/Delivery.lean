/-
Generated files on a disk: a whole set below a directory, or the downloads side by side in one. A
refusal ends either, and what was written before it stays.
-/
import AppExport.Bundle.Download
import AppExport.Disk.Storage

namespace AppExport.Bundle

open Disk (Fault Storage makeDirectories)

variable {m : Type → Type} [Monad m] [Storage m]

/-- A file below a directory; the directories in its path are made. Gives the path written. -/
def deliverFile (directory : String) (file : File) : ExceptT Fault m String := do
  let path := Disk.Path.join directory file.1
  match Disk.Path.parent? path with
  | some parent => makeDirectories parent
  | none => pure ()
  Storage.write path (.text file.2)
  return path

/-- A set of files below a directory, in order. Gives the paths written. -/
def deliverSet (directory : String) (files : FileSet) : ExceptT Fault m (List String) :=
  files.files.mapM (deliverFile directory)

/-- A download in a directory. Unlike a file of a set it gets no directories of its own. -/
def deliverDownload (directory : String) (d : Download) : ExceptT Fault m String := do
  makeDirectories directory
  let path := Disk.Path.join directory d.filename
  Storage.write path (.text d.content)
  return path

/-- Downloads in order: the paths written, and the refusal that ended it if there was one. -/
def deliverDownloads (directory : String) : List Download → m (List String × Option Fault)
  | [] => return ([], none)
  | d :: rest => do
    match ← (deliverDownload directory d : ExceptT Fault m String).run with
    | .ok path =>
      let (paths, fault) ← deliverDownloads directory rest
      return (path :: paths, fault)
    | .error fault => return ([], some fault)

end AppExport.Bundle
