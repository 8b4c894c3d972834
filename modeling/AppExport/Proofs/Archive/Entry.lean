/-
What an archive says of the files it was made from. Every file has its entry, and behind the name of
the root stands the path that the file has, so the files can be told again from the entries, whatever
the project is called.
-/
import AppExport.Proofs.Archive.Container
import AppExport.Proofs.Bundle.FileSet
import AppExport.Proofs.Text.ByteOrder

namespace AppExport.Archive

open AppExport.Bundle (File FileSet)

/-! ## Names below a root -/

/-- The path of a name below a root. -/
def behindRoot? (root name : String) : Option String :=
  let start := (root ++ "/").toList
  if start.isPrefixOf name.toList then some (String.ofList (name.toList.drop start.length)) else none

/-- The file that an entry stands for. -/
def Entry.file? (root : String) (e : Entry) : Option File :=
  (behindRoot? root e.name).map (·, e.content)

theorem behindRoot?_entryName (config : Config) (path : String) :
    behindRoot? config.token (entryName config path) = some path := by
  have hname : (entryName config path).toList = (config.token ++ "/").toList ++ path.toList := by
    rw [entryName, String.toList_append]
  rw [behindRoot?, hname, if_pos (List.isPrefixOf_iff_prefix.2 (List.prefix_append _ _)),
    List.drop_left, String.ofList_toList]

theorem mapM_file?_entries (s : FileSet) (config : Config) :
    (entries s config).mapM (Entry.file? config.token) = some s.files := by
  have hfile : (Entry.file? config.token ∘ fun file : File => ⟨entryName config file.1, file.2⟩) =
      fun file => pure (id file) := by
    funext file
    rw [Function.comp_apply, Entry.file?, behindRoot?_entryName]
    rfl
  rw [entries, List.mapM_map]
  refine (congrArg (s.files.mapM ·) hfile).trans ?_
  rw [List.mapM_pure, List.map_id]
  rfl

/-- Two paths have different names below the same root. -/
theorem entryName_injective (config : Config) : Function.Injective (entryName config) := by
  intro path path' h
  have hfirst := behindRoot?_entryName config path
  rw [h, behindRoot?_entryName] at hfirst
  exact (Option.some.inj hfirst).symm

theorem nodup_names_entries (s : FileSet) (config : Config) :
    ((entries s config).map Entry.name).Nodup := by
  have hnames : (entries s config).map Entry.name = s.paths.map (entryName config) := by
    simp [entries, FileSet.paths]
  rw [hnames]
  exact s.paths_nodup.map (entryName_injective config)

/-! ## Archivers -/

/-- A way to make entries an archive, and to find them again in one. -/
structure Archiver where
  pack : List Entry → Option (List UInt8)
  unpack : List UInt8 → Option (List Entry)

/-- Whether an archiver keeps what it is given: entries under different names, none too long. -/
def Archiver.Keeps (archiver : Archiver) : Prop :=
  ∀ entries : List Entry, (entries.map Entry.name).Nodup →
    (∀ e ∈ entries, e.name.utf8ByteSize ≤ longestEntryName) →
      ∃ archive, archiver.pack entries = some archive ∧ archiver.unpack archive = some entries

/-- The containers of this library. -/
def Archiver.container : Archiver := ⟨fun entries => some (Archive.container entries), Archive.unpack⟩

theorem keeps_container : Archiver.container.Keeps := fun entries _ hshort =>
  ⟨Archive.container entries, rfl, unpack_container hshort⟩

/-- A set has one file for each path that was written, with the content that was written last, in
ascending order of the paths and so of their bytes; nothing else about the writing is left in it. An
archive of it that an archiver keeps has one entry for each file, in that order and under different
names, and behind the root they are the files. -/
theorem archived_inserts (steps : List File) (config : Config) :
    let s := FileSet.ofList steps
    (∀ path, s.get? path = FileSet.lastContent? path steps) ∧
    (∀ path, path ∈ s.paths ↔ path ∈ steps.map Prod.fst) ∧
    s.paths.Pairwise (fun path other => path < other ∧ path.toUTF8.toList < other.toUTF8.toList) ∧
    (∀ others, (∀ path, FileSet.lastContent? path others = FileSet.lastContent? path steps) →
      FileSet.ofList others = s) ∧
    ∀ archiver : Archiver, archiver.Keeps →
      (∀ path ∈ s.paths, (entryName config path).utf8ByteSize ≤ longestEntryName) →
      ∃ archive found, archiver.pack (entries s config) = some archive ∧
        archiver.unpack archive = some found ∧ found.length = s.size ∧
        (found.map Entry.name).Nodup ∧ found.mapM (Entry.file? config.token) = some s.files := by
  intro s
  refine ⟨FileSet.get?_ofList_eq steps, fun path => FileSet.mem_paths_ofList,
    List.pairwise_map.2 (s.ascending.imp fun h => ⟨h, Text.toUTF8_lt_of_lt h⟩),
    fun others h => ?_, fun archiver hkeeps hshort => ?_⟩
  · refine FileSet.eq_of_get?_eq fun path => ?_
    rw [FileSet.get?_ofList_eq, FileSet.get?_ofList_eq, h]
  · have hentries : ∀ e ∈ entries s config, e.name.utf8ByteSize ≤ longestEntryName := by
      intro e he
      obtain ⟨file, hfile, rfl⟩ := List.mem_map.1 he
      exact hshort file.1 (List.mem_map_of_mem hfile)
    have hnodup := nodup_names_entries s config
    obtain ⟨archive, hpack, hunpack⟩ := hkeeps (entries s config) hnodup hentries
    refine ⟨archive, entries s config, hpack, hunpack, ?_, hnodup, mapM_file?_entries s config⟩
    rw [entries, List.length_map, FileSet.size]

/-- A project whose name has slashes, dots and a blank, and a file that was written twice. -/
theorem archived_inserts_dotted :
    let config : Config := { Config.fresh with name := "../my app/v1." }
    let s := FileSet.ofList [("b.ts", "1"), ("a/x.ts", "2"), ("b.ts", "3")]
    Archiver.container.Keeps ∧
      (∀ path ∈ s.paths, (entryName config path).utf8ByteSize ≤ longestEntryName) ∧
      ∃ archive found, Archiver.container.pack (entries s config) = some archive ∧
        Archiver.container.unpack archive = some found ∧ found.length = s.size ∧
        (found.map Entry.name).Nodup ∧ found.mapM (Entry.file? config.token) = some s.files := by
  intro config s
  have hshort : ∀ path ∈ s.paths, (entryName config path).utf8ByteSize ≤ longestEntryName := by
    decide +kernel
  exact ⟨keeps_container, hshort,
    (archived_inserts _ config).2.2.2.2 Archiver.container keeps_container hshort⟩

end AppExport.Archive
