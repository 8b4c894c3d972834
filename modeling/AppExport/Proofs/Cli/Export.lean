/-
What the command for exports makes of a project: whether it is loaded depends on the text of its file
alone, and an export writes the files of the app that the project is assembled to.
-/
import AppExport.Cli.Run
import AppExport.Proofs.Bundle.Assemble
import AppExport.Proofs.Bundle.Delivery

namespace AppExport.Cli

open AppExport.Bundle (FileSet placed)
open Disk (Content Fault Program Recording Storage Wrote makeDirectories)

section Loaded

variable {σ : Type} [Storage (StateM σ)] {s : σ} {project directory text : String}

/-- A state in which a file can be read. -/
def Holds (s : σ) (path text : String) : Prop :=
  Program.on s (Storage.readText path : Program σ Fault String) = (.ok text, s)

theorem on_load (h : Holds s project text) :
    Program.on s (load project : Program σ Failure Document) =
      ((Document.load text).mapError (Failure.unloadable project), s) := by
  rw [load, Program.on_bind, Program.on_adapt, h]
  dsimp only [Except.mapError]
  cases Document.load text <;> rfl

theorem on_exportProject (h : Holds s project text) {document : Document}
    (hload : Document.load text = .ok document) {files : FileSet}
    (hfiles : Bundle.assemble document.components document.config = .ok files) (mode : Mode) :
    Program.on s (exportProject project directory mode : Program σ Failure (List String)) =
      match mode with
      | .tree => Program.on s
        (ExceptT.adapt Failure.file (Bundle.deliverSet directory files : Program σ Fault _))
      | .zip => Program.on s (do return [← writeArchive files document.config directory])
      | .downloads => Program.on s (writeDownloads files document.config directory) := by
  rw [exportProject, Program.on_bind, on_load h, hload]
  simp only [Except.mapError, hfiles]
  cases mode <;> rfl

end Loaded

theorem holds_disk {d : Disk Content} {project text : String}
    (h : d.read project = .ok (.text text)) : Holds d project text := by
  rw [Holds, Program.on_readText, h]

theorem holds_recording (text project : String) (written : List (String × Content)) :
    Holds (Recording.mk text written) project text := rfl

/-! ## Assembled files -/

theorem inner_appPaths : ∀ path ∈ Bundle.appPaths, Disk.Path.Inner path := by
  have h : ∀ path ∈ Bundle.appPaths, Disk.Path.isAbsolute path = false ∧
      ∀ name ∈ Disk.Path.names path, name ≠ "." ∧ name ≠ ".." := by decide
  exact fun path hpath => ⟨(h path hpath).1, (h path hpath).2⟩

theorem nodup_names_appPaths : (Bundle.appPaths.map Disk.Path.names).Nodup := by decide

/-- The files of an app have paths that lead below the directory of an export, each to its own place. -/
theorem inner_assembled {forest : Component.Forest} {config : Config} {files : FileSet}
    (h : Bundle.assemble forest config = .ok files) :
    (∀ file ∈ files.files, Disk.Path.Inner file.1) ∧
      (files.files.map fun file => Disk.Path.names file.1).Nodup := by
  rw [Bundle.assemble_eq] at h
  cases h
  have hperm : ((FileSet.ofList (Bundle.appFiles forest config)).files.map Prod.fst).Perm
      Bundle.appPaths := FileSet.paths_ofList_perm Bundle.nodup_appPaths
  constructor
  · intro file hfile
    exact inner_appPaths _ (hperm.mem_iff.1 (List.mem_map_of_mem hfile))
  · have hnodup := (hperm.map Disk.Path.names).nodup_iff.2 nodup_names_appPaths
    rwa [List.map_map] at hnodup

/-! ## Exports -/

/-- Something written in a directory, which is made if it is missing. -/
def writeBeside {m : Type → Type} [Monad m] [Storage m] (directory path : String)
    (content : Content) : ExceptT Failure m String := do
  ExceptT.adapt Failure.output (makeDirectories directory : ExceptT Fault m _)
  ExceptT.adapt (Failure.archive path) (Storage.write path content : ExceptT Fault m _)
  return path

section Exported

variable {project directory text : String} {document : Document} {files : FileSet}

theorem on_tree_recording (hload : Document.load text = .ok document)
    (hfiles : Bundle.assemble document.components document.config = .ok files)
    (written : List (String × Content)) :
    Program.on (Recording.mk text written)
        (exportProject project directory .tree : Program Recording Failure (List String)) =
      (.ok (files.files.map fun file => (placed directory file).1),
        ⟨text, written ++ files.files.map (placed directory)⟩) := by
  rw [on_exportProject (holds_recording text project written) hload hfiles]
  dsimp only
  rw [Program.on_adapt, Bundle.deliverSet, Bundle.on_deliverFiles_recording]
  rfl

theorem writeArchive_eq {m : Type → Type} [Monad m] [Storage m] (config : Config) :
    (writeArchive files config directory : ExceptT Failure m String) =
      writeBeside directory (Disk.Path.join directory (Archive.filename config))
        (.archive (Archive.entries files config)) := rfl

theorem on_writeBeside_recording (path : String) (content : Content) (r : Recording) :
    Program.on r (writeBeside directory path content : Program Recording Failure String) =
      (.ok path, { r with written := r.written ++ [(path, content)] }) := by
  rw [writeBeside, Program.on_bind, Program.on_adapt, Program.on_makeDirectories_recording]
  rfl

theorem wrote_beside {d d' : Disk Content} {path found : String} {content : Content}
    (h : Program.on d (writeBeside directory path content : Program (Disk Content) Failure String) =
      (.ok found, d')) : found = path ∧ Wrote [(path, content)] d d' := by
  have hmake := Program.Grows.adapt Failure.output (Program.grows_makeDirectories directory)
  have hwrite : ∀ d d' : Disk Content,
      Program.on d (ExceptT.adapt (Failure.archive path) (Storage.write path content) :
        Program (Disk Content) Failure Unit) = (.ok (), d') → d.write path content = .ok d' :=
    fun _ _ h => Bundle.write_of_on_write (Program.on_of_on_adapt h)
  rw [writeBeside] at h
  exact Bundle.wrote_behind hmake hwrite h

theorem on_zip_recording (hload : Document.load text = .ok document)
    (hfiles : Bundle.assemble document.components document.config = .ok files)
    (written : List (String × Content)) :
    Program.on (Recording.mk text written)
        (exportProject project directory .zip : Program Recording Failure (List String)) =
      (.ok [Disk.Path.join directory (Archive.filename document.config)],
        ⟨text, written ++ [(Disk.Path.join directory (Archive.filename document.config),
          .archive (Archive.entries files document.config))]⟩) := by
  rw [on_exportProject (holds_recording text project written) hload hfiles]
  dsimp only
  rw [Program.on_bind, writeArchive_eq, on_writeBeside_recording]
  rfl

theorem wrote_tree {d d' : Disk Content} {paths : List String}
    (hread : d.read project = .ok (.text text)) (hload : Document.load text = .ok document)
    (hfiles : Bundle.assemble document.components document.config = .ok files)
    (hrun : Program.on d (exportProject project directory .tree : Program (Disk Content) Failure _) =
      (.ok paths, d')) :
    paths = files.files.map (fun file => (placed directory file).1) ∧
      Wrote (files.files.map (placed directory)) d d' := by
  rw [on_exportProject (holds_disk hread) hload hfiles] at hrun
  dsimp only at hrun
  rw [Program.on_adapt] at hrun
  obtain ⟨hinner, hnodup⟩ := inner_assembled hfiles
  cases hset : Program.on d (Bundle.deliverSet directory files : Program (Disk Content) Fault _) with
  | mk result last =>
    rw [hset] at hrun
    cases result with
    | error e => cases hrun
    | ok paths =>
      cases hrun
      exact Bundle.wrote_deliverFiles hinner hnodup hset

theorem wrote_zip {d d' : Disk Content} {paths : List String}
    (hread : d.read project = .ok (.text text)) (hload : Document.load text = .ok document)
    (hfiles : Bundle.assemble document.components document.config = .ok files)
    (hrun : Program.on d (exportProject project directory .zip : Program (Disk Content) Failure _) =
      (.ok paths, d')) :
    paths = [Disk.Path.join directory (Archive.filename document.config)] ∧
      Wrote [(Disk.Path.join directory (Archive.filename document.config),
        .archive (Archive.entries files document.config))] d d' := by
  rw [on_exportProject (holds_disk hread) hload hfiles] at hrun
  dsimp only at hrun
  rw [Program.on_bind, writeArchive_eq] at hrun
  split at hrun
  next path last hwrite =>
    obtain ⟨rfl, hwrote⟩ := wrote_beside hwrite
    cases hrun
    exact ⟨rfl, hwrote⟩
  next => cases hrun

end Exported

/-- What exports of the project in a text write and give: `outputs` by directory, in order, where nothing
fails, and the same on a disk if they end well there. -/
structure Exports (text : String) (mode : Mode) (outputs : String → List (String × Content)) : Prop where
  recording : ∀ project directory written,
    Program.on (Recording.mk text written)
        (exportProject project directory mode : Program Recording Failure (List String)) =
      (.ok ((outputs directory).map Prod.fst), ⟨text, written ++ outputs directory⟩)
  disk : ∀ project directory (d d' : Disk Content) paths, d.read project = .ok (.text text) →
    Program.on d (exportProject project directory mode : Program (Disk Content) Failure _) =
      (.ok paths, d') →
    paths = (outputs directory).map Prod.fst ∧ Wrote (outputs directory) d d'

section

variable {text : String} {document : Document} {files : FileSet}

theorem exports_tree (hload : Document.load text = .ok document)
    (hfiles : Bundle.assemble document.components document.config = .ok files) :
    Exports text .tree fun directory => files.files.map (placed directory) where
  recording _ _ _ := by
    rw [on_tree_recording hload hfiles, List.map_map]
    rfl
  disk _ _ _ _ _ hread hrun := by
    simpa only [List.map_map, Function.comp_def] using wrote_tree hread hload hfiles hrun

theorem exports_zip (hload : Document.load text = .ok document)
    (hfiles : Bundle.assemble document.components document.config = .ok files) :
    Exports text .zip fun directory =>
      [(Disk.Path.join directory (Archive.filename document.config),
        .archive (Archive.entries files document.config))] where
  recording _ _ written := by rw [on_zip_recording hload hfiles written, List.map_singleton]
  disk _ _ _ _ _ hread hrun := by
    simpa only [List.map_cons, List.map_nil] using wrote_zip hread hload hfiles hrun

end

end AppExport.Cli
