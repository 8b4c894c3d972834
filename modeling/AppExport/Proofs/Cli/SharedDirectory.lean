/-
Several projects that share a directory for their downloads. The entry modules are called after their
projects and stay. The other files have the same names for all projects, so they are those of the
project that was written last.
-/
import AppExport.Proofs.Bundle.Descriptors
import AppExport.Proofs.Cli.Downloads

namespace AppExport.Cli

open AppExport.Bundle (Download FileSet Offered held primaryPaths)
open Disk (Content Program Storage)

variable {files : FileSet} {directory : String} {d made : Disk Content} {document last : Document}
  {documents : List Document}

/-! ## Writing them -/

/-- The downloads of an app, written in a directory if it could be assembled. It takes the result of
assembling, so that nothing about it needs to look into that. -/
def writeAssembled {m : Type → Type} [Monad m] [Storage m] (directory : String) (config : Config) :
    Except Template.TemplateError FileSet → ExceptT Failure m (List String)
  | .error e => throw (.template e)
  | .ok files => writeDownloads files config directory

/-- A project assembled, and its downloads written. -/
def writeProject {m : Type → Type} [Monad m] [Storage m] (directory : String) (document : Document) :
    ExceptT Failure m (List String) :=
  writeAssembled directory document.config
    (Bundle.assemble document.components document.config)

/-- The command does so with a project that it has loaded. -/
theorem exportProject_downloads {m : Type → Type} [Monad m] [Storage m] (project directory : String) :
    (exportProject project directory .downloads : ExceptT Failure m _) =
      load project >>= writeProject directory := by
  rw [exportProject]
  refine congrArg _ (funext fun document => ?_)
  rw [writeProject]
  generalize Bundle.assemble document.components document.config = assembled
  cases assembled <;> rfl

theorem writeProject_of_assemble {m : Type → Type} [Monad m] [Storage m]
    (h : Bundle.assemble document.components document.config = .ok files) (directory : String) :
    (writeProject directory document : ExceptT Failure m _) =
      writeDownloads files document.config directory := by
  rw [writeProject, h, writeAssembled]

/-- The downloads of a project. -/
def projectDownloads (document : Document) : List Download :=
  Bundle.appDownloads document.components document.config

theorem on_writeProject (hmake : Disk.Makes d directory made)
    (haccepts : ∀ download ∈ projectDownloads document, made.Accepts directory download.filename) :
    Program.on d (writeProject directory document : Program (Disk Content) Failure _) =
      (.ok ((projectDownloads document).map fun download => Disk.Path.join directory download.filename),
        made.putAll (made.place directory) (held (projectDownloads document))) := by
  obtain ⟨files, hfiles, hdownloads⟩ :=
    Bundle.exists_assembled document.components document.config
  rw [writeProject_of_assemble hfiles]
  exact on_writeDownloads_of_made hdownloads hmake haccepts

/-- Whether projects can be written in a directory. -/
structure AcceptsAll (d : Disk Content) (directory : String) (documents : List Document) : Prop where
  serves : d.Serves directory
  accepts : ∀ document ∈ documents, ∀ filename ∈ (Bundle.offers document.config).map (·.filename),
    d.Accepts directory filename

namespace AcceptsAll

theorem download (h : AcceptsAll d directory documents) (hmem : document ∈ documents) :
    ∀ download ∈ projectDownloads document, d.Accepts directory download.filename :=
  List.forall_mem_map.1 (h.accepts document hmem)

/-- They still can be once one of them has been. -/
theorem putAll (h : AcceptsAll d directory documents) (hmem : document ∈ documents) :
    AcceptsAll (d.putAll (d.place directory) (held (projectDownloads document))) directory
      documents where
  serves := (Disk.keeps_putAll (List.forall_mem_map.2 fun download hdownload =>
    (h.download hmem download hdownload).free)).serves h.serves
  accepts other hother filename hfilename := (h.accepts other hother filename hfilename).putAll _ _

end AcceptsAll

/-- What projects leave in a directory that they share, in their order. -/
def sharedFiles (documents : List Document) : List (String × Content) :=
  documents.flatMap fun document => held (projectDownloads document)

/-- The paths of what they leave. -/
def sharedPaths (directory : String) (documents : List Document) : List (List String) :=
  documents.map fun document =>
    (projectDownloads document).map fun download => Disk.Path.join directory download.filename

/-- Projects are written one after the other. -/
theorem on_writeProjects (h : AcceptsAll d directory documents) :
    Program.on d (documents.mapM (writeProject directory) : Program (Disk Content) Failure _) =
      (.ok (sharedPaths directory documents),
        d.putAll (d.place directory) (sharedFiles documents)) := by
  have hstep : ∀ document ∈ documents, ∀ d : Disk Content, AcceptsAll d directory documents →
      Program.on d (writeProject directory document : Program (Disk Content) Failure _) =
          (.ok ((projectDownloads document).map fun download =>
              Disk.Path.join directory download.filename),
            d.putAll (d.place directory) (held (projectDownloads document))) ∧
        AcceptsAll (d.putAll (d.place directory) (held (projectDownloads document))) directory
          documents := fun document hmem d h =>
    ⟨on_writeProject (.of_serves h.serves) (h.download hmem), h.putAll hmem⟩
  rw [sharedFiles, ← Disk.foldl_putAll]
  exact Program.on_mapM hstep h

/-- The first of them makes the directory. -/
theorem on_writeProjects_of_made
    (hmake : Disk.Makes d directory made) (h : AcceptsAll made directory documents) (hne : documents ≠ []) :
    Program.on d (documents.mapM (writeProject directory) : Program (Disk Content) Failure _) =
      (.ok (sharedPaths directory documents),
        made.putAll (made.place directory) (sharedFiles documents)) := by
  obtain ⟨document, rest, rfl⟩ := List.exists_cons_of_ne_nil hne
  have hfirst := h.download List.mem_cons_self
  rw [← on_writeProjects h]
  refine Program.on_mapM_cons_congr ?_ rest
  rw [on_writeProject hmake hfirst, on_writeProject (.of_serves h.serves) hfirst]

/-! ## What is left of each -/

theorem offered_projectDownloads (document : Document) :
    ∃ files, Offered files document.config (projectDownloads document) :=
  have ⟨files, _, hdownloads⟩ := Bundle.exists_assembled document.components document.config
  ⟨files, Bundle.offered_of_downloads hdownloads⟩

theorem lookup_held {download : Download} (hmem : download ∈ projectDownloads document) :
    (held (projectDownloads document)).reverse.lookup download.filename =
      some (.text download.content) := by
  obtain ⟨files, hoffered⟩ := offered_projectDownloads document
  refine Disk.lookup_reverse_of_unique (List.mem_map_of_mem hmem) fun file hfile hname => ?_
  obtain ⟨other, hother, rfl⟩ := List.mem_map.1 hfile
  rw [List.inj_on_of_nodup_map hoffered.different hother hmem hname]

/-- The files of the project that was written last are there. -/
theorem lookup_sharedFiles_last {download : Download} (hlast : documents.getLast? = some last)
    (hmem : download ∈ projectDownloads last) :
    (sharedFiles documents).reverse.lookup download.filename = some (.text download.content) := by
  obtain ⟨earlier, rfl⟩ := List.getLast?_eq_some_iff.1 hlast
  rw [sharedFiles, List.flatMap_append, List.flatMap_singleton, List.reverse_append,
    List.lookup_append, lookup_held hmem, Option.some_or]

/-- Projects with different tokens do not write each other's entry modules. -/
theorem lookup_sharedFiles_entry (htokens : (documents.map (·.config.token)).Nodup)
    (hmem : document ∈ documents) :
    (sharedFiles documents).reverse.lookup (document.config.token ++ "_App.tsx") =
      some (.text (Bundle.entryModule document.components document.config)) := by
  refine Disk.lookup_reverse_of_unique ?_ fun file hfile hname => ?_
  · exact List.mem_flatMap.2 ⟨document, hmem, .head _⟩
  · obtain ⟨other, hother, hheld⟩ := List.mem_flatMap.1 hfile
    obtain ⟨download, hdownload, rfl⟩ := List.mem_map.1 hheld
    obtain rfl | hplain := List.mem_cons.1 hdownload
    · have htoken : other.config.token = document.config.token := by
        have hchars := congrArg String.toList hname
        rw [String.toList_append, String.toList_append] at hchars
        exact String.toList_injective (List.append_cancel_right hchars)
      rw [List.inj_on_of_nodup_map htokens hother hmem htoken]
    · have hprimary : download.filename ∈ primaryPaths.tail :=
        List.mem_map_of_mem (f := (·.filename)) hplain
      rw [show download.filename = _ from hname] at hprimary
      exact absurd hprimary (Bundle.append_ending_not_mem _)

/-- Whether every file that the downloads of a project name is there with what the project has. -/
def Intact (d : Disk Content) (directory : String) (document : Document) : Prop :=
  ∀ files downloads, Bundle.assemble document.components document.config = .ok files →
    Bundle.downloads files document.config = .ok downloads → ∀ download ∈ downloads,
      d.read (Disk.Path.join directory download.filename) = .ok (.text download.content)

theorem intact_iff : Intact d directory document ↔ ∀ download ∈ projectDownloads document,
    d.read (Disk.Path.join directory download.filename) = .ok (.text download.content) := by
  constructor
  · intro h
    obtain ⟨files, hfiles, hdownloads⟩ :=
      Bundle.exists_assembled document.components document.config
    exact h files _ hfiles hdownloads
  · intro h files downloads hfiles hdownloads
    rw [Bundle.downloads_assembled hfiles] at hdownloads
    exact Except.ok.inj hdownloads ▸ h

/-- In a shared directory every file is what was written last under its name. -/
theorem read_sharedFiles {filename : String} {content : Content} (h : AcceptsAll d directory documents)
    (hlookup : (sharedFiles documents).reverse.lookup filename = some content) :
    (d.putAll (d.place directory) (sharedFiles documents)).read (Disk.Path.join directory filename) =
      .ok content := by
  refine Disk.read_putAll h.serves (fun file hfile => ?_) hlookup
  obtain ⟨document, hdocument, hheld⟩ := List.mem_flatMap.1 hfile
  obtain ⟨download, hdownload, rfl⟩ := List.mem_map.1 hheld
  exact h.download hdocument download hdownload

/-- Of several projects only the last one has all of its files, as its package descriptor is in the
place of theirs. -/
theorem intact_sharedFiles_iff (h : AcceptsAll d directory documents)
    (htokens : (documents.map (·.config.token)).Nodup) (hmem : document ∈ documents) :
    Intact (d.putAll (d.place directory) (sharedFiles documents)) directory document ↔
      documents.getLast? = some document := by
  rw [intact_iff]
  constructor
  · intro hintact
    -- The package descriptor that is left says whose it is.
    obtain ⟨last, hlast⟩ : ∃ last, documents.getLast? = some last :=
      Option.isSome_iff_exists.1 (List.getLast?_isSome.2 (List.ne_nil_of_mem hmem))
    have hpackage := hintact _ (.tail _ (.head _))
    have hwritten : (d.putAll (d.place directory) (sharedFiles documents)).read
        (Disk.Path.join directory Bundle.Path.package) =
          .ok (.text (Bundle.packageDescriptor last.config)) :=
      read_sharedFiles h (lookup_sharedFiles_last hlast (.tail _ (.head _)))
    have hdescriptor : Bundle.packageDescriptor document.config =
        Bundle.packageDescriptor last.config := by
      rw [hwritten] at hpackage
      exact (Content.text.inj (Except.ok.inj hpackage)).symm
    have htoken := Bundle.token_of_packageDescriptor hdescriptor
    rw [hlast, List.inj_on_of_nodup_map htokens hmem (List.mem_of_getLast? hlast) htoken]
  · exact fun hlast download hdownload =>
      read_sharedFiles h (lookup_sharedFiles_last hlast hdownload)

/-- Projects whose tokens all differ are written one after the other in a directory that accepts the
names of their files. Each keeps its entry module, and none but the last keeps all its files. -/
theorem shared_directory (documents : List Document) {directory : String} {d made : Disk Content}
    (htokens : (documents.map (·.config.token)).Nodup) (hmake : Disk.Makes d directory made)
    (haccepts : ∀ document ∈ documents, ∀ filename ∈ (Bundle.offers document.config).map (·.filename),
      made.Accepts directory filename) :
    ∃ paths d', Program.on d (documents.mapM (writeProject directory) :
        Program (Disk Content) Failure _) = (.ok paths, d') ∧
      (∀ document ∈ documents,
        d'.read (Disk.Path.join directory (document.config.token ++ "_App.tsx")) =
          .ok (.text (Bundle.entryModule document.components document.config))) ∧
      ∀ document ∈ documents,
        Intact d' directory document ↔ documents.getLast? = some document := by
  have hall : AcceptsAll made directory documents := ⟨hmake.serves, haccepts⟩
  -- Without projects no directory is made.
  by_cases hne : documents = []
  · subst hne
    exact ⟨[], d, rfl, by simp, by simp⟩
  · refine ⟨_, _, on_writeProjects_of_made hmake hall hne, fun document hmem => ?_,
      fun document hmem => intact_sharedFiles_iff hall htokens hmem⟩
    exact read_sharedFiles hall (lookup_sharedFiles_entry htokens hmem)

/-- A project without components. -/
def bare (name : String) : Document := ⟨[], { Config.fresh with name }⟩

theorem accepts_bare : ∀ document ∈ [bare "A", bare "B"],
    ∀ filename ∈ (Bundle.offers document.config).map (·.filename),
      blankOut.Accepts "out" filename := by decide +kernel

theorem nodup_tokens_bare : ([bare "A", bare "B"].map (·.config.token)).Nodup := by decide +kernel

/-- Of two projects the second one is complete. -/
theorem shared_directory_two :
    ∃ paths d', Program.on Disk.blank ([bare "A", bare "B"].mapM (writeProject "out") :
        Program (Disk Content) Failure _) = (.ok paths, d') ∧
      d'.read "out/A_App.tsx" = .ok (.text (Bundle.entryModule [] (bare "A").config)) ∧
      Intact d' "out" (bare "B") := by
  obtain ⟨paths, d', hrun, hentries, hintact⟩ := shared_directory [bare "A", bare "B"]
    nodup_tokens_bare makes_blankOut accepts_bare
  have hsecond : bare "B" ∈ [bare "A", bare "B"] := .tail _ (.head _)
  exact ⟨paths, d', hrun, hentries (bare "A") (.head _), (hintact (bare "B") hsecond).2 rfl⟩

/-- The first one is not, although both of them have names without slashes. -/
theorem first_overwritten :
    ∃ paths d', Program.on Disk.blank ([bare "A", bare "B"].mapM (writeProject "out") :
        Program (Disk Content) Failure _) = (.ok paths, d') ∧ ¬Intact d' "out" (bare "A") := by
  have hall : AcceptsAll blankOut "out" [bare "A", bare "B"] :=
    ⟨makes_blankOut.serves, accepts_bare⟩
  refine ⟨_, _, on_writeProjects_of_made makes_blankOut hall (List.cons_ne_nil _ _),
    fun hintact => ?_⟩
  have hlast := (intact_sharedFiles_iff hall nodup_tokens_bare (.head _)).1 hintact
  have hname := congrArg (·.config.name) (Option.some.inj hlast)
  exact absurd hname (by decide)

end AppExport.Cli
