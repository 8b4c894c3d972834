/-
The primary files of a generated app, offered one by one. The entry module is named after the
project so that it can be told from that of another one; the others keep their paths.
-/
import AppExport.Bundle.Assemble

namespace AppExport.Bundle

structure Download where
  filename : String
  mediaType : String
  content : String
deriving DecidableEq, Repr

/-- A primary file that a set lacks. -/
structure MissingFile where
  path : String
deriving DecidableEq, Repr

def MissingFile.message (e : MissingFile) : String := "Generated project is missing " ++ e.path

/-- One primary file: where a set has it and how it is offered. -/
structure Offer where
  path : String
  filename : String
  mediaType : String
deriving DecidableEq, Repr

def offers (config : Config) : List Offer :=
  [⟨Path.entry, config.token ++ "_App.tsx", "text/plain"⟩,
   ⟨Path.package, Path.package, "application/json"⟩,
   ⟨Path.manifest, Path.manifest, "application/json"⟩,
   ⟨Path.readme, Path.readme, "text/markdown"⟩]

def Offer.download (files : FileSet) (offer : Offer) : Except MissingFile Download :=
  match files.get? offer.path with
  | some content => .ok ⟨offer.filename, offer.mediaType, content⟩
  | none => .error ⟨offer.path⟩

/-- The downloads of a set, or the first primary file that it lacks. -/
def downloads (files : FileSet) (config : Config) : Except MissingFile (List Download) :=
  (offers config).mapM (·.download files)

end AppExport.Bundle
