/-
What a set holds under a path is what was written there last, and nothing else tells two sets apart.
Files written under paths that all differ are kept as they were given, only their order is that of the
paths.
-/
import AppExport.Bundle.FileSet
import Mathlib.Data.List.Basic
import Mathlib.Data.List.Nodup

namespace AppExport.Bundle

theorem insertFile_perm {file : File} {files : List File} (h : file.1 ∉ files.map Prod.fst) :
    (insertFile file files).Perm (file :: files) := by
  induction files with
  | nil => exact .refl _
  | cons f rest ih =>
    rw [List.map_cons, List.mem_cons, not_or] at h
    obtain ⟨hne, hrest⟩ := h
    rw [insertFile, if_neg hne]
    split
    · exact .refl _
    · exact ((ih hrest).cons f).trans (.swap file f rest)

theorem lookup_cons_file (file : File) (files : List File) (path : String) :
    (file :: files).lookup path = if path = file.1 then some file.2 else files.lookup path := by
  obtain ⟨p, content⟩ := file
  by_cases h : path = p
  · rw [h, List.lookup_cons_self, if_pos rfl]
  · have hbeq : (path == p) = false := beq_eq_false_iff_ne.2 h
    rw [List.lookup_cons, hbeq, if_neg h]

theorem lookup_insertFile (file : File) (files : List File) (path : String) :
    (insertFile file files).lookup path =
      if path = file.1 then some file.2 else files.lookup path := by
  induction files with
  | nil => rw [insertFile, lookup_cons_file]
  | cons f rest ih =>
    rw [insertFile]
    split
    · rw [lookup_cons_file]
    · split
      next heq =>
        rw [lookup_cons_file, lookup_cons_file]
        split
        · rfl
        next hne => rw [if_neg (heq ▸ hne)]
      next hne =>
        rw [lookup_cons_file, lookup_cons_file, ih]
        by_cases h : path = f.1
        · have hfile : path ≠ file.1 := fun hfile => hne (hfile.symm.trans h)
          rw [if_pos h, if_neg hfile, if_pos h]
        · rw [if_neg h, if_neg h]

namespace FileSet

theorem paths_nodup (s : FileSet) : s.paths.Nodup :=
  List.pairwise_map.2 (s.ascending.imp fun hlt heq => String.ne_of_lt hlt heq)

theorem files_foldl_insert_perm (s : FileSet) {files : List File}
    (h : (s.paths ++ files.map Prod.fst).Nodup) :
    (files.foldl (fun s f => s.insert f.1 f.2) s).files.Perm (s.files ++ files) := by
  induction files generalizing s with
  | nil => simp
  | cons f rest ih =>
    rw [List.map_cons] at h
    have hnew : f.1 ∉ s.paths := fun hmem =>
      (List.nodup_append.1 h).2.2 f.1 hmem f.1 List.mem_cons_self rfl
    have hinsert : (s.insert f.1 f.2).files.Perm (f :: s.files) := insertFile_perm hnew
    have hpaths : ((s.insert f.1 f.2).paths ++ rest.map Prod.fst).Perm
        (s.paths ++ f.1 :: rest.map Prod.fst) :=
      ((hinsert.map Prod.fst).append_right _).trans List.perm_middle.symm
    have hrest := ih (s.insert f.1 f.2) (hpaths.nodup_iff.2 h)
    exact hrest.trans ((hinsert.append_right rest).trans List.perm_middle.symm)

/-- Files under different paths are all kept. -/
theorem files_ofList_perm {files : List File} (h : (files.map Prod.fst).Nodup) :
    (ofList files).files.Perm files :=
  files_foldl_insert_perm empty h

theorem paths_ofList_perm {files : List File} (h : (files.map Prod.fst).Nodup) :
    (ofList files).paths.Perm (files.map Prod.fst) :=
  (files_ofList_perm h).map Prod.fst

theorem lookup_eq_some_iff {files : List File} (h : (files.map Prod.fst).Nodup)
    {path content : String} : files.lookup path = some content ↔ (path, content) ∈ files := by
  induction files with
  | nil => simp
  | cons f rest ih =>
    obtain ⟨p, c⟩ := f
    rw [List.map_cons, List.nodup_cons] at h
    obtain ⟨hnew, hrest⟩ := h
    by_cases hp : path = p
    · subst hp
      have hnot : (path, content) ∉ rest := fun hmem => hnew (List.mem_map.2 ⟨_, hmem, rfl⟩)
      simp [hnot, eq_comm]
    · have hbeq : (path == p) = false := beq_eq_false_iff_ne.2 hp
      simp [List.lookup_cons, hbeq, hp, ih hrest]

theorem get?_eq_some_iff {s : FileSet} {path content : String} :
    s.get? path = some content ↔ (path, content) ∈ s.files :=
  lookup_eq_some_iff s.paths_nodup

/-- A file of the list is found under its path. -/
theorem get?_ofList {files : List File} (h : (files.map Prod.fst).Nodup) {file : File}
    (hfile : file ∈ files) : (ofList files).get? file.1 = some file.2 :=
  get?_eq_some_iff.2 ((files_ofList_perm h).mem_iff.2 hfile)

/-! ## Writing over -/

@[simp] theorem get?_insert (s : FileSet) (path content other : String) :
    (s.insert path content).get? other = if other = path then some content else s.get? other :=
  lookup_insertFile (path, content) s.files other

/-- The content that is written last under a path. -/
def lastContent? (path : String) (files : List File) : Option String := files.reverse.lookup path

theorem get?_foldl_insert (s : FileSet) (files : List File) (path : String) :
    (files.foldl (fun s f => s.insert f.1 f.2) s).get? path =
      (lastContent? path files).or (s.get? path) := by
  induction files generalizing s with
  | nil => rfl
  | cons f rest ih =>
    rw [List.foldl_cons, ih, get?_insert, lastContent?, lastContent?, List.reverse_cons,
      List.lookup_append, Option.or_assoc, lookup_cons_file]
    split <;> rfl

theorem get?_ofList_eq (files : List File) (path : String) :
    (ofList files).get? path = lastContent? path files := by
  rw [ofList, get?_foldl_insert]
  cases lastContent? path files <;> rfl

theorem mem_paths_iff {s : FileSet} {path : String} : path ∈ s.paths ↔ (s.get? path).isSome := by
  simp only [Option.isSome_iff_exists, get?_eq_some_iff, paths, List.mem_map]
  exact ⟨fun ⟨⟨p, c⟩, h, hp⟩ => ⟨c, hp ▸ h⟩, fun ⟨c, h⟩ => ⟨_, h, rfl⟩⟩

theorem mem_paths_ofList {files : List File} {path : String} :
    path ∈ (ofList files).paths ↔ path ∈ files.map Prod.fst := by
  rw [mem_paths_iff, get?_ofList_eq, lastContent?, ← Option.ne_none_iff_isSome, ne_eq,
    List.lookup_eq_none_iff]
  simp

/-- Sets that hold the same under every path are the same. -/
theorem eq_of_get?_eq {s t : FileSet} (h : ∀ path, s.get? path = t.get? path) : s = t := by
  have hmem : ∀ file : File, file ∈ s.files ↔ file ∈ t.files := fun (path, content) => by
    rw [← get?_eq_some_iff, ← get?_eq_some_iff, h]
  have hperm : s.files.Perm t.files :=
    (List.perm_ext_iff_of_nodup (.of_map _ s.paths_nodup) (.of_map _ t.paths_nodup)).2 hmem
  have hfiles : s.files = t.files :=
    hperm.eq_of_pairwise (fun _ _ _ _ hlt hgt => absurd hgt (String.lt_asymm hlt))
      s.ascending t.ascending
  cases s
  cases t
  cases hfiles
  rfl

end FileSet
end AppExport.Bundle
