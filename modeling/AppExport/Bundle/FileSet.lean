/-
Generated files: contents by path, in ascending order of the paths, each path once. The order is
that of code points, which is also that of the bytes in UTF-8.

`insert` replaces the content of a path that is present; `ascending` holds of every set.
-/
import AppExport.Json.Value

namespace AppExport.Bundle

/-- A path and its content. -/
abbrev File := String × String

/-- `file` among files in ascending order, in the place of one with its path if there is one. -/
def insertFile (file : File) : List File → List File
  | [] => [file]
  | f :: rest =>
    if file.1 < f.1 then file :: f :: rest
    else if file.1 = f.1 then file :: rest
    else f :: insertFile file rest

theorem mem_insertFile {file g : File} {files : List File} (h : g ∈ insertFile file files) :
    g = file ∨ g ∈ files := by
  induction files with
  | nil => simpa [insertFile] using h
  | cons f rest ih =>
    simp only [insertFile] at h
    split at h
    · simpa using h
    · split at h
      · rcases List.mem_cons.mp h with h | h
        · exact .inl h
        · exact .inr (List.mem_cons_of_mem _ h)
      · rcases List.mem_cons.mp h with h | h
        · exact .inr (h ▸ List.mem_cons_self ..)
        · exact (ih h).imp id (List.mem_cons_of_mem _)

theorem lt_of_not_lt_of_ne {a b : String} (h : ¬a < b) (hne : a ≠ b) : b < a :=
  String.not_le.mp fun hle => hne (String.le_antisymm hle (String.not_lt.mp h))

theorem ascending_insertFile {file : File} {files : List File}
    (h : files.Pairwise (·.1 < ·.1)) : (insertFile file files).Pairwise (·.1 < ·.1) := by
  induction files with
  | nil => simp [insertFile]
  | cons f rest ih =>
    obtain ⟨hf, hrest⟩ := List.pairwise_cons.mp h
    simp only [insertFile]
    split
    next hlt =>
      refine List.pairwise_cons.mpr ⟨fun g hg => ?_, h⟩
      rcases List.mem_cons.mp hg with rfl | hg
      · exact hlt
      · exact String.lt_trans hlt (hf g hg)
    next hnlt =>
      split
      next heq => exact List.pairwise_cons.mpr ⟨fun g hg => heq ▸ hf g hg, hrest⟩
      next hne =>
        refine List.pairwise_cons.mpr ⟨fun g hg => ?_, ih hrest⟩
        rcases mem_insertFile hg with rfl | hg
        · exact lt_of_not_lt_of_ne hnlt hne
        · exact hf g hg

structure FileSet where
  files : List File
  ascending : files.Pairwise (·.1 < ·.1)
deriving Repr

namespace FileSet

def empty : FileSet := ⟨[], .nil⟩

def insert (path content : String) (s : FileSet) : FileSet :=
  ⟨insertFile (path, content) s.files, ascending_insertFile s.ascending⟩

/-- Files written one after the other. -/
def ofList (files : List File) : FileSet :=
  files.foldl (fun s f => s.insert f.1 f.2) empty

def get? (path : String) (s : FileSet) : Option String := s.files.lookup path

def contains (path : String) (s : FileSet) : Bool := (s.get? path).isSome

def paths (s : FileSet) : List String := s.files.map Prod.fst

def size (s : FileSet) : Nat := s.files.length

def isEmpty (s : FileSet) : Bool := s.files.isEmpty

def toJson (s : FileSet) : Json.Value :=
  .object (s.files.map fun (path, content) => (path, .text content))

end FileSet
end AppExport.Bundle
