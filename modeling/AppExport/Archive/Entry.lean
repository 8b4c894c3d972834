/-
The source archive of a project: one entry for each file, in the order of the files, under a
folder named after the project.
-/
import AppExport.Archive.Checksum
import AppExport.Bundle.FileSet
import AppExport.Config

namespace AppExport.Archive

open AppExport.Bundle (FileSet)

structure Entry where
  name : String
  content : String
deriving DecidableEq, Repr

namespace Entry

def bytes (e : Entry) : List UInt8 := e.content.toUTF8.toList

def size (e : Entry) : Nat := e.content.utf8ByteSize

def checksum (e : Entry) : UInt32 := Archive.checksum e.bytes

end Entry

/-- The file name of a project's archive. -/
def filename (config : Config) : String := config.token ++ "_source.zip"

/-- The entry's name for a path. -/
def entryName (config : Config) (path : String) : String := config.token ++ "/" ++ path

def entries (files : FileSet) (config : Config) : List Entry :=
  files.files.map fun (path, content) => ⟨entryName config path, content⟩

end AppExport.Archive
